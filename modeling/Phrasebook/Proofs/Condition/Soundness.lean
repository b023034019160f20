import Phrasebook.Proofs.Condition.Grammar

/-! The parser accepts only conditions. Its state spells the lexemes it has read (`State.Spelled`):
the rows of complete operands, the words and signs in front of the operand that is due, and the
levels around the open parentheses. Every lexeme that is accepted is added to that spelling
(`spelled_read`), and a state that may end spells a condition with the tree that it ends with
(`derives_of_finish`). -/

namespace Phrasebook.Condition

/-! ### Reading rows of lexemes -/

namespace State

/-- Read lexemes one after the other. -/
def readMany : State → List Lexeme → Except Refusal State
  | s, [] => .ok s
  | s, l :: ls =>
      match s.read l with
      | .ok next => readMany next ls
      | .error r => .error r

theorem readMany_cons {s next : State} {l : Lexeme} {ls : List Lexeme}
    (h : s.read l = .ok next) : s.readMany (l :: ls) = next.readMany ls := by
  rw [readMany, h]

theorem exists_read_of_readMany {s s' : State} {l : Lexeme} {ls : List Lexeme}
    (h : s.readMany (l :: ls) = .ok s') :
    ∃ next, s.read l = .ok next ∧ next.readMany ls = .ok s' := by
  unfold readMany at h
  cases hl : s.read l with
  | error r =>
      rw [hl] at h
      cases h
  | ok next =>
      rw [hl] at h
      exact ⟨next, rfl, h⟩

theorem readMany_append {s next : State} {ls : List Lexeme} (ms : List Lexeme)
    (h : s.readMany ls = .ok next) : s.readMany (ls ++ ms) = next.readMany ms := by
  induction ls generalizing s with
  | nil =>
      cases h
      rfl
  | cons l ls ih =>
      obtain ⟨s', hl, hls⟩ := exists_read_of_readMany h
      rw [List.cons_append, readMany_cons hl]
      exact ih hls

/-- Positions matter for errors only. -/
theorem readAll_eq_ok_iff {s next : State} {ts : List Token} :
    readAll s ts = .ok next ↔ s.readMany (ts.map Token.lexeme) = .ok next := by
  induction ts generalizing s with
  | nil =>
      unfold readAll
      rw [List.map_nil, readMany, Except.ok.injEq, Except.ok.injEq]
  | cons t ts ih =>
      rw [List.map_cons, readAll, readMany]
      cases s.read t.lexeme with
      | error r => simp
      | ok s' => exact ih

end State

/-! ### What a state spells -/

/-- Complete operands of a chain, each with the connective behind it. -/
def Row (op : Connective) (ls : List Lexeme) (es : List Expr) : Prop :=
  ∃ parts : List (List Lexeme × Expr), (∀ part ∈ parts, Derives op.operands part.1 part.2) ∧
    ls = parts.flatMap (fun part => part.1 ++ [.operator (.connect op)]) ∧
    es = parts.map Prod.snd

theorem Row.nil (op : Connective) : Row op [] [] :=
  ⟨[], by simp, rfl, rfl⟩

theorem Row.snoc {op : Connective} {ls ms : List Lexeme} {es : List Expr} {e : Expr}
    (h : Row op ls es) (he : Derives op.operands ms e) :
    Row op (ls ++ (ms ++ [.operator (.connect op)])) (es ++ [e]) := by
  obtain ⟨parts, hparts, rfl, rfl⟩ := h
  refine ⟨parts ++ [(ms, e)], ?_, by simp, by simp⟩
  exact List.forall_mem_append.2 ⟨hparts, List.forall_mem_singleton.2 he⟩

theorem intercalate_concat {α : Type} (sep last : List α) (rows : List (List α)) :
    sep.intercalate (rows ++ [last]) = rows.flatMap (· ++ sep) ++ last := by
  induction rows with
  | nil => simp
  | cons row rows ih =>
      cases rows with
      | nil => simp [List.intercalate_cons_cons]
      | cons next rest =>
          rw [List.cons_append, List.cons_append, List.intercalate_cons_cons,
            ← List.cons_append, ih]
          simp

/-- The last operand completes a chain. -/
theorem Row.close {op : Connective} {ls ms : List Lexeme} {es : List Expr} {e : Expr}
    (h : Row op ls es) (he : Derives op.operands ms e) :
    Derives (.chain op) (ls ++ ms) (.join op (es ++ [e])) := by
  obtain ⟨parts, hparts, rfl, rfl⟩ := h
  have hchain := Derives.chain op (parts ++ [(ms, e)]) (by simp)
    (List.forall_mem_append.2 ⟨hparts, List.forall_mem_singleton.2 he⟩)
  rwa [List.map_append, List.map_append, List.map_singleton, List.map_singleton,
    intercalate_concat, List.flatMap_map] at hchain

/-- The left side of a comparison under way with its operator, or nothing. -/
inductive Left : List Lexeme → Option (Expr × Comparison) → Prop
  | absent : Left [] none
  | present {ls : List Lexeme} {e : Expr} (op : Comparison) (h : Derives .unary ls e) :
      Left (ls ++ [.operator (.compare op)]) (some (e, op))

/-- The lexemes with which a level was begun, up to where its next operand is due. -/
inductive Level.Spelled : Level → List Lexeme → Prop
  | intro {as cs fs : List Lexeme} {alternatives conjuncts : List Expr}
      {left : Option (Expr × Comparison)} (nots bangs : Nat) (ha : Row .or as alternatives)
      (hc : Row .and cs conjuncts) (hl : Left fs left) :
      Spelled ⟨alternatives, conjuncts, nots, left, bangs⟩
        (as ++ (cs ++ (List.replicate nots (.operator .not) ++
          (fs ++ List.replicate bangs (.operator .bang)))))

/-- The levels around open parentheses, with the parentheses. -/
inductive Opened : List Level → List Lexeme → Prop
  | nil : Opened [] []
  | cons {level : Level} {outer : List Level} {ms os : List Lexeme} (hl : level.Spelled ms)
      (ho : Opened outer os) : Opened (level :: outer) (os ++ (ms ++ [.openParen]))

/-- The lexemes that lead to a state. -/
inductive State.Spelled : State → List Lexeme → Prop
  | due {outer : List Level} {level : Level} {os ms : List Lexeme} (ho : Opened outer os)
      (hl : level.Spelled ms) : Spelled ⟨outer, level, none⟩ (os ++ ms)
  | behind {outer : List Level} {alternatives conjuncts : List Expr} {nots : Nat}
      {left : Option (Expr × Comparison)} {e : Expr} {os ms es : List Lexeme}
      (ho : Opened outer os) (hl : Level.Spelled ⟨alternatives, conjuncts, nots, left, 0⟩ ms)
      (he : Derives .unary es e) :
      Spelled ⟨outer, ⟨alternatives, conjuncts, nots, left, 0⟩, some e⟩ (os ++ (ms ++ es))

theorem State.spelled_start : State.start.Spelled [] :=
  .due .nil (.intro 0 0 (.nil .or) (.nil .and) .absent)

/-! ### Closing what was begun -/

theorem Left.conjunct {fs es : List Lexeme} {left : Option (Expr × Comparison)} {e : Expr}
    (alternatives conjuncts : List Expr) (nots : Nat) (hl : Left fs left)
    (he : Derives .unary es e) :
    Derives .negation (List.replicate nots (.operator .not) ++ (fs ++ es))
      (Level.conjunct ⟨alternatives, conjuncts, nots, left, 0⟩ e) := by
  cases hl with
  | absent => exact he.unary.comparison.nots nots
  | present op h =>
      have hcompare := (Derives.compare op h he).comparison.nots nots
      rwa [List.append_assoc, List.singleton_append]

/-- An operand completes everything that its level has begun. -/
theorem Level.Spelled.close {alternatives conjuncts : List Expr} {nots : Nat}
    {left : Option (Expr × Comparison)} {e : Expr} {ms es : List Lexeme}
    (hl : Level.Spelled ⟨alternatives, conjuncts, nots, left, 0⟩ ms) (he : Derives .unary es e) :
    DerivesCondition (ms ++ es) (Level.close ⟨alternatives, conjuncts, nots, left, 0⟩ e) := by
  cases hl with
  | intro nots bangs ha hc hl =>
      have h := ha.close (hc.close (hl.conjunct alternatives conjuncts nots he))
      simp only [List.append_assoc, List.replicate_zero, List.nil_append]
      exact h

theorem spelled_withOperand {outer : List Level} {level : Level} {e : Expr} {os ms es : List Lexeme}
    (ho : Opened outer os) (hl : level.Spelled ms) (he : Derives .primary es e) :
    (State.withOperand outer level e).Spelled (os ++ (ms ++ es)) := by
  cases hl with
  | intro nots bangs ha hc hl =>
      have h := State.Spelled.behind ho (.intro nots 0 ha hc hl) (he.primary.bangs bangs)
      simpa only [State.withOperand, List.append_assoc, List.replicate_zero,
        List.nil_append] using h

/-! ### Every accepted lexeme is added -/

theorem spelled_readOperand {outer : List Level} {level : Level} {l : Lexeme} {s : State}
    {os ms : List Lexeme} (ho : Opened outer os) (hl : level.Spelled ms)
    (h : State.readOperand outer level l = .ok s) : s.Spelled (os ++ (ms ++ [l])) := by
  unfold State.readOperand at h
  split at h
  · cases h
    cases hl with
    | intro nots bangs ha hc hl =>
        have hs := State.Spelled.due ho (.intro nots (bangs + 1) ha hc hl)
        simpa only [List.append_assoc, List.replicate_succ'] using hs
  · cases hl with
    | intro nots bangs ha hc hl =>
        split at h
        · next hfront =>
            cases h
            cases hl with
            | present op h => simp at hfront
            | absent =>
                have hbangs : bangs = 0 := by simpa using hfront
                have hs := State.Spelled.due ho (.intro (nots + 1) 0 ha hc .absent)
                simpa only [hbangs, List.append_assoc, List.replicate_succ', List.replicate_zero,
                  List.nil_append, List.append_nil] using hs
        · cases h
  · cases h
    have hs := State.Spelled.due (.cons hl ho) (.intro 0 0 (.nil .or) (.nil .and) .absent)
    simpa only [Level.start, List.replicate_zero, List.append_nil] using hs
  · cases hoperand : operand l with
    | error r =>
        rw [hoperand] at h
        cases h
    | ok e =>
        rw [hoperand] at h
        cases h
        exact spelled_withOperand ho hl (.operand (Operand.of_eq_ok hoperand).1)

theorem spelled_readOperator {outer : List Level} {alternatives conjuncts : List Expr} {nots : Nat}
    {left : Option (Expr × Comparison)} {e : Expr} {l : Lexeme} {s : State}
    {os ms es : List Lexeme} (ho : Opened outer os)
    (hl : Level.Spelled ⟨alternatives, conjuncts, nots, left, 0⟩ ms) (he : Derives .unary es e)
    (h : State.readOperator outer ⟨alternatives, conjuncts, nots, left, 0⟩ e l = .ok s) :
    s.Spelled (os ++ (ms ++ (es ++ [l]))) := by
  unfold State.readOperator at h
  split at h
  · next op =>
      cases hl with
      | intro nots bangs ha hc hl =>
          split at h
          · next hfront =>
              cases h
              cases hl with
              | present op h => simp at hfront
              | absent =>
                  have hs := State.Spelled.due ho (.intro nots 0 ha hc (.present op he))
                  simpa only [List.append_assoc, List.replicate_zero, List.nil_append,
                    List.append_nil] using hs
          · cases h
  · next op =>
      cases h
      cases hl with
      | intro nots bangs ha hc hl =>
          have hconjunct := hl.conjunct alternatives conjuncts nots he
          cases op with
          | and =>
              have hs := State.Spelled.due ho (.intro 0 0 ha (hc.snoc hconjunct) .absent)
              simpa only [Level.continued, List.append_assoc, List.replicate_zero, List.nil_append,
                List.append_nil] using hs
          | or =>
              have hs := State.Spelled.due ho
                (.intro 0 0 (ha.snoc (hc.close hconjunct)) (.nil .and) .absent)
              simpa only [Level.continued, Level.alternative, List.append_assoc,
                List.replicate_zero, List.nil_append, List.append_nil] using hs
  · split at h
    · cases h
    · cases h
      cases ho with
      | cons hlevel ho =>
          have hs := spelled_withOperand ho hlevel (.parens (hl.close he))
          simpa only [List.append_assoc, List.cons_append, List.nil_append] using hs
    · cases h

/-- **An accepted lexeme is added to what the state spells.** -/
theorem spelled_read {s s' : State} {l : Lexeme} {ls : List Lexeme} (hs : s.Spelled ls)
    (h : s.read l = .ok s') : s'.Spelled (ls ++ [l]) := by
  cases hs with
  | due ho hl =>
      rw [List.append_assoc]
      exact spelled_readOperand ho hl h
  | behind ho hl he =>
      rw [List.append_assoc, List.append_assoc]
      exact spelled_readOperator ho hl he h

theorem spelled_readMany {s s' : State} {ls ms : List Lexeme} (hs : s.Spelled ls)
    (h : s.readMany ms = .ok s') : s'.Spelled (ls ++ ms) := by
  induction ms generalizing s ls with
  | nil =>
      cases h
      rwa [List.append_nil]
  | cons m ms ih =>
      obtain ⟨next, hm, hms⟩ := State.exists_read_of_readMany h
      have hnext := ih (spelled_read hs hm) hms
      rwa [List.append_assoc, List.singleton_append] at hnext

/-- A state that may end spells a condition with the tree it ends with. -/
theorem derives_of_finish {s : State} {ls : List Lexeme} {e : Expr} (hs : s.Spelled ls)
    (h : s.finish = .ok e) : DerivesCondition ls e := by
  cases hs with
  | due ho hl => cases h
  | behind ho hl he =>
      cases ho with
      | nil =>
          cases h
          exact hl.close he
      | cons hlevel ho => cases h

/-! ### Accepted numbers are short -/

theorem short_of_read {s s' : State} {l : Lexeme} (h : s.read l = .ok s') : l.Short := by
  cases l with
  | number negative whole fraction =>
      obtain ⟨outer, level, last⟩ := s
      cases last with
      | none =>
          cases hoperand : operand (.number negative whole fraction) with
          | ok e => exact (Operand.of_eq_ok hoperand).2
          | error r => simp [State.read, State.readOperand, hoperand, Except.map] at h
      | some e => cases outer <;> cases h
  | _ => trivial

theorem short_of_readMany {s s' : State} {ls : List Lexeme} (h : s.readMany ls = .ok s') :
    ∀ l ∈ ls, l.Short := by
  induction ls generalizing s with
  | nil => exact List.forall_mem_nil _
  | cons l ls ih =>
      obtain ⟨next, hl, hls⟩ := State.exists_read_of_readMany h
      exact List.forall_mem_cons.2 ⟨short_of_read hl, ih hls⟩

end Phrasebook.Condition
