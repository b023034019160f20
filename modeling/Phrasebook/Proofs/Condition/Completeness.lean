import Phrasebook.Proofs.Condition.Soundness
import Phrasebook.Text.Split

/-! Every condition is accepted. A row of lexemes that the grammar derives is read to its end from
every state in which its category is due (`Category.Read`), and leaves a state that stands behind
the derived tree; the induction is on the derivation. -/

namespace Phrasebook.Condition

/-! ### Every derived row is read -/

/-- Behind the last lexeme of an operand of an `and` chain. -/
def State.BehindConjunct (outer : List Level) (alternatives conjuncts : List Expr) (e : Expr)
    (s : State) : Prop :=
  ∃ level last, s = ⟨outer, level, some last⟩ ∧ level.alternatives = alternatives ∧
    level.conjuncts = conjuncts ∧ level.conjunct last = e

/-- Behind the last lexeme of an operand of an `or` chain. -/
def State.BehindAlternative (outer : List Level) (alternatives : List Expr) (e : Expr)
    (s : State) : Prop :=
  ∃ level last, s = ⟨outer, level, some last⟩ ∧ level.alternatives = alternatives ∧
    level.alternative last = e

/-- Behind the last lexeme of an expression, inside some levels. -/
def State.BehindWhole (outer : List Level) (e : Expr) (s : State) : Prop :=
  ∃ level last, s = ⟨outer, level, some last⟩ ∧ level.close last = e

/-- A row of lexemes is read as a tree wherever its category is due. -/
def Category.Read (ls : List Lexeme) (e : Expr) : Category → Prop
  | .primary | .unary => ∀ outer level,
      State.readMany ⟨outer, level, none⟩ ls = .ok (State.withOperand outer level e)
  | .comparison | .negation => ∀ outer alternatives conjuncts nots, ∃ s,
      State.readMany ⟨outer, ⟨alternatives, conjuncts, nots, none, 0⟩, none⟩ ls = .ok s ∧
        s.BehindConjunct outer alternatives conjuncts (Expr.negated nots e)
  | .chain .and => ∀ outer alternatives, ∃ s,
      State.readMany ⟨outer, ⟨alternatives, [], 0, none, 0⟩, none⟩ ls = .ok s ∧
        s.BehindAlternative outer alternatives e
  | .chain .or => ∀ outer, ∃ s,
      State.readMany ⟨outer, .start, none⟩ ls = .ok s ∧ s.BehindWhole outer e

theorem Expr.negated_negation (n : Nat) (e : Expr) :
    Expr.negated n (.negation e) = Expr.negated (n + 1) e := by
  induction n with
  | zero => rfl
  | succ n ih =>
      rw [negated, ih]
      rfl

/-- The operands of a chain are read one after the other, if each is read behind those in front of
it and its connective leads on to the next. -/
theorem readMany_intercalate (op : Connective) {begun : List Expr → State}
    {behind : List Expr → Expr → State → Prop}
    (hnext : ∀ es e s, behind es e s →
      s.read (.operator (.connect op)) = .ok (begun (es ++ [e])))
    (parts : List (List Lexeme × Expr)) (hne : parts ≠ [])
    (hread : ∀ part ∈ parts, ∀ es, ∃ s,
      (begun es).readMany part.1 = .ok s ∧ behind es part.2 s) (es : List Expr) :
    ∃ s init last,
      (begun es).readMany ([.operator (.connect op)].intercalate (parts.map Prod.fst)) = .ok s ∧
        behind init last s ∧ init ++ [last] = es ++ parts.map Prod.snd := by
  induction parts generalizing es with
  | nil => exact absurd rfl hne
  | cons part rest ih =>
      obtain ⟨s, hs, hbehind⟩ := hread part List.mem_cons_self es
      cases rest with
      | nil => exact ⟨s, es, part.2, by simpa using hs, hbehind, by simp⟩
      | cons next rest =>
          obtain ⟨s', init, last, hs', hlast, heq⟩ := ih (List.cons_ne_nil _ _)
            (fun p hp => hread p (List.mem_cons_of_mem _ hp)) (es ++ [part.2])
          refine ⟨s', init, last, ?_, hlast, by rw [heq]; simp⟩
          rw [List.map_cons, List.map_cons, List.intercalate_cons_cons, List.append_assoc,
            State.readMany_append _ hs, List.singleton_append,
            State.readMany_cons (hnext es part.2 s hbehind)]
          exact hs'

theorem read_chain_and {parts : List (List Lexeme × Expr)} (hne : parts ≠ [])
    (h : ∀ part ∈ parts, Category.Read part.1 part.2 .negation) :
    Category.Read ([.operator (.connect .and)].intercalate (parts.map Prod.fst))
      (.join .and (parts.map Prod.snd)) (.chain .and) := by
  intro outer alternatives
  have hnext : ∀ es e s, State.BehindConjunct outer alternatives es e s →
      s.read (.operator (.connect .and)) =
        .ok ⟨outer, ⟨alternatives, es ++ [e], 0, none, 0⟩, none⟩ := by
    rintro es e s ⟨level, last, rfl, rfl, rfl, rfl⟩
    rfl
  obtain ⟨s, init, last, hs, ⟨level, e, rfl, halts, hinit, hlast⟩, heq⟩ :=
    readMany_intercalate .and hnext parts hne
      (fun part hp es => h part hp outer alternatives es 0) []
  refine ⟨_, hs, level, e, rfl, halts, ?_⟩
  rw [Level.alternative, hinit, hlast, heq, List.nil_append]

theorem read_chain_or {parts : List (List Lexeme × Expr)} (hne : parts ≠ [])
    (h : ∀ part ∈ parts, Category.Read part.1 part.2 (.chain .and)) :
    Category.Read ([.operator (.connect .or)].intercalate (parts.map Prod.fst))
      (.join .or (parts.map Prod.snd)) (.chain .or) := by
  intro outer
  have hnext : ∀ es e s, State.BehindAlternative outer es e s →
      s.read (.operator (.connect .or)) =
        .ok ⟨outer, ⟨es ++ [e], [], 0, none, 0⟩, none⟩ := by
    rintro es e s ⟨level, last, rfl, rfl, rfl⟩
    rfl
  obtain ⟨s, init, last, hs, ⟨level, e, rfl, hinit, hlast⟩, heq⟩ :=
    readMany_intercalate .or hnext parts hne (fun part hp es => h part hp outer es) []
  refine ⟨_, hs, level, e, rfl, ?_⟩
  rw [Level.close, hinit, hlast, heq, List.nil_append]

theorem readOperand_of_operand {l : Lexeme} {e : Expr} (h : Operand l e) (hshort : l.Short)
    (outer : List Level) (level : Level) :
    State.readOperand outer level l = .ok (State.withOperand outer level e) := by
  have hok := h.eq_ok hshort
  cases h <;> simp only [State.readOperand, hok, Except.map]

/-- **What the grammar derives is read.** -/
theorem Derives.read {c : Category} {ls : List Lexeme} {e : Expr} (h : Derives c ls e)
    (hshort : ∀ l ∈ ls, l.Short) : c.Read ls e := by
  induction h with
  | chain op parts hne _ ih =>
      have hparts : ∀ part ∈ parts, Category.Read part.1 part.2 op.operands := by
        intro part hp
        exact ih part hp fun l hl =>
          hshort l (Text.mem_intercalate (List.mem_map_of_mem hp) hl)
      cases op with
      | and => exact read_chain_and hne hparts
      | or => exact read_chain_or hne hparts
  | not _ ih =>
      intro outer alternatives conjuncts nots
      obtain ⟨s, hs, hbehind⟩ := ih (fun l hl => hshort l (List.mem_cons_of_mem _ hl)) outer
        alternatives conjuncts (nots + 1)
      refine ⟨s, ?_, by rwa [Expr.negated_negation]⟩
      rwa [State.readMany_cons rfl]
  | comparison _ ih => exact ih hshort
  | @compare ls rs left right op _ _ ihl ihr =>
      intro outer alternatives conjuncts nots
      have hleft := ihl (fun l hl => hshort l (List.mem_append_left _ hl)) outer
        ⟨alternatives, conjuncts, nots, none, 0⟩
      have hright := ihr (fun l hl => hshort l
        (List.mem_append_right _ (List.mem_cons_of_mem _ hl))) outer
        ⟨alternatives, conjuncts, nots, some (left, op), 0⟩
      refine ⟨State.withOperand outer ⟨alternatives, conjuncts, nots, some (left, op), 0⟩ right, ?_,
        _, _, rfl, rfl, rfl, rfl⟩
      rw [State.readMany_append _ hleft, State.readMany_cons rfl]
      exact hright
  | unary _ ih =>
      intro outer alternatives conjuncts nots
      refine ⟨_, ih hshort outer _, _, _, rfl, rfl, rfl, rfl⟩
  | bang _ ih =>
      intro outer level
      rw [State.readMany_cons rfl, ih (fun l hl => hshort l (List.mem_cons_of_mem _ hl)),
        State.withOperand, State.withOperand, Expr.negated_negation]
  | primary _ ih => exact ih hshort
  | parens _ ih =>
      intro outer level
      obtain ⟨s, hs, inside, last, rfl, rfl⟩ := ih (fun l hl => hshort l
        (List.mem_cons_of_mem _ (List.mem_append_left _ hl))) (level :: outer)
      rw [List.cons_append, State.readMany_cons rfl, State.readMany_append _ hs]
      rfl
  | @operand l e h =>
      intro outer level
      have hread : State.read ⟨outer, level, none⟩ l = .ok (State.withOperand outer level e) :=
        readOperand_of_operand h (hshort l List.mem_cons_self) outer level
      rw [State.readMany_cons hread, State.readMany]

end Phrasebook.Condition
