import Phrasebook.Condition.Parser

/-! The grammar of conditions. It has five levels, from chains of operands down to single operands,
and says of a row of lexemes which tree it derives. The word `not` stands in front of a whole
comparison, the sign `!` in front of one of its sides, and comparisons are not chained. -/

namespace Phrasebook.Condition

/-- The operand that a single lexeme is. -/
inductive Operand : Lexeme → Expr → Prop
  | field (body : List Char) (h : Text.trim body ≠ []) :
      Operand (.field body) (.field (String.ofList (Text.trim body)))
  | whole (digits : List Char) :
      Operand (.number false digits none) (.literal (.int (Text.digitsValue digits)))
  | negative (digits : List Char) :
      Operand (.number true digits none) (.literal (.int (-Text.digitsValue digits)))
  | fraction (negative : Bool) (whole digits : List Char) :
      Operand (.number negative whole (some digits))
        (.literal (.real
          (.ofDecimal negative (Text.digitsValue (whole ++ digits)) (-digits.length))))
  | quoted (mark : Char) (body : List Char) :
      Operand (.quoted mark body) (.literal (.text (String.ofList (unescape body))))
  | true : Operand (.name "true".toList) (.literal (.bool true))
  | false : Operand (.name "false".toList) (.literal (.bool false))
  | null : Operand (.name "null".toList) (.literal .null)
  | undefined : Operand (.name "undefined".toList) (.literal .null)

inductive Category
  | chain (op : Connective)
  | negation
  | comparison
  | unary
  | primary

/-- What the operands of a chain are: those of an `or` chain are `and` chains. -/
def Connective.operands : Connective → Category
  | or => .chain .and
  | and => .negation

/-- A category derives a tree from a row of lexemes. -/
inductive Derives : Category → List Lexeme → Expr → Prop
  | chain (op : Connective) (parts : List (List Lexeme × Expr)) (hne : parts ≠ [])
      (h : ∀ part ∈ parts, Derives op.operands part.1 part.2) :
      Derives (.chain op) ([.operator (.connect op)].intercalate (parts.map Prod.fst))
        (.join op (parts.map Prod.snd))
  | not {ls : List Lexeme} {e : Expr} (h : Derives .negation ls e) :
      Derives .negation (.operator .not :: ls) (.negation e)
  | comparison {ls : List Lexeme} {e : Expr} (h : Derives .comparison ls e) :
      Derives .negation ls e
  | compare {ls rs : List Lexeme} {left right : Expr} (op : Comparison)
      (hl : Derives .unary ls left) (hr : Derives .unary rs right) :
      Derives .comparison (ls ++ .operator (.compare op) :: rs) (.comparison op left right)
  | unary {ls : List Lexeme} {e : Expr} (h : Derives .unary ls e) : Derives .comparison ls e
  | bang {ls : List Lexeme} {e : Expr} (h : Derives .unary ls e) :
      Derives .unary (.operator .bang :: ls) (.negation e)
  | primary {ls : List Lexeme} {e : Expr} (h : Derives .primary ls e) : Derives .unary ls e
  | parens {ls : List Lexeme} {e : Expr} (h : Derives (.chain .or) ls e) :
      Derives .primary (.openParen :: ls ++ [.closeParen]) e
  | operand {l : Lexeme} {e : Expr} (h : Operand l e) : Derives .primary [l] e

/-- A whole condition. -/
abbrev DerivesCondition : List Lexeme → Expr → Prop :=
  Derives (.chain .or)

/-! ### Numbers that may be read -/

/-- A whole number has no more digits than may be read. -/
def Lexeme.Short : Lexeme → Prop
  | number _ digits none => digits.length ≤ Reading.maxDigits
  | _ => True

theorem operand_name_of_eq_ok {spelling : List Char} {e : Expr}
    (h : operand (.name spelling) = .ok e) : Operand (.name spelling) e := by
  have hspelled : ∀ word : String, String.ofList spelling = word → spelling = word.toList := by
    rintro word rfl
    exact String.toList_ofList.symm
  unfold operand namedValue? at h
  by_cases htrue : String.ofList spelling = "true"
  · cases hspelled _ htrue
    cases h
    exact .true
  by_cases hfalse : String.ofList spelling = "false"
  · cases hspelled _ hfalse
    cases h
    exact .false
  by_cases hnull : String.ofList spelling = "null"
  · cases hspelled _ hnull
    cases h
    exact .null
  by_cases hundefined : String.ofList spelling = "undefined"
  · cases hspelled _ hundefined
    cases h
    exact .undefined
  · simp [htrue, hfalse, hnull, hundefined] at h

theorem Operand.of_eq_ok {l : Lexeme} {e : Expr} (h : operand l = .ok e) :
    Operand l e ∧ l.Short := by
  cases l with
  | field body =>
      unfold operand at h
      by_cases hblank : (Text.trim body).isEmpty
      · simp [hblank] at h
      · simp only [hblank] at h
        cases h
        exact ⟨.field body fun hnil => hblank (by rw [hnil]; rfl), trivial⟩
  | number negative whole fraction =>
      cases fraction with
      | some digits =>
          cases h
          exact ⟨.fraction negative whole digits, trivial⟩
      | none =>
          unfold operand numberValue at h
          by_cases hlong : Reading.maxDigits < whole.length
          · simp [hlong, Except.map] at h
          · simp only [hlong, if_false] at h
            cases negative with
            | false =>
                cases h
                exact ⟨.whole whole, Nat.le_of_not_lt hlong⟩
            | true =>
                cases h
                exact ⟨.negative whole, Nat.le_of_not_lt hlong⟩
  | quoted mark body =>
      cases h
      exact ⟨.quoted mark body, trivial⟩
  | name spelling => exact ⟨operand_name_of_eq_ok h, trivial⟩
  | operator op => cases h
  | openParen => cases h
  | closeParen => cases h

theorem Operand.eq_ok {l : Lexeme} {e : Expr} (h : Operand l e) (hshort : l.Short) :
    operand l = .ok e := by
  cases h with
  | field body hbody => simp [operand, List.isEmpty_iff, hbody]
  | whole digits =>
      have hlong : ¬ Reading.maxDigits < digits.length := Nat.not_lt.2 hshort
      simp [operand, numberValue, hlong, Except.map]
  | negative digits =>
      have hlong : ¬ Reading.maxDigits < digits.length := Nat.not_lt.2 hshort
      simp [operand, numberValue, hlong, Except.map]
  | fraction => rfl
  | quoted => rfl
  | true => rfl
  | false => rfl
  | null => rfl
  | undefined => rfl

/-! ### Derivations behind signs -/

theorem Derives.nots {ls : List Lexeme} {e : Expr} (n : Nat) (h : Derives .negation ls e) :
    Derives .negation (List.replicate n (.operator .not) ++ ls) (Expr.negated n e) := by
  induction n with
  | zero => exact h
  | succ n ih => exact ih.not

theorem Derives.bangs {ls : List Lexeme} {e : Expr} (n : Nat) (h : Derives .unary ls e) :
    Derives .unary (List.replicate n (.operator .bang) ++ ls) (Expr.negated n e) := by
  induction n with
  | zero => exact h
  | succ n ih => exact ih.bang

/-! ### Derivations of operands -/

theorem Derives.single {op : Connective} {ls : List Lexeme} {e : Expr}
    (h : Derives op.operands ls e) : Derives (.chain op) ls e := by
  have hchain := Derives.chain op [(ls, e)] (by simp) (by simpa using h)
  rwa [List.map_singleton, List.map_singleton, List.intercalate_singleton] at hchain

/-- A chain of either kind is a condition. -/
theorem Derives.whole {op : Connective} {ls : List Lexeme} {e : Expr}
    (h : Derives (.chain op) ls e) : DerivesCondition ls e := by
  cases op with
  | and => exact Derives.single h
  | or => exact h

theorem Derives.operands {ls : List Lexeme} {e : Expr} (op : Connective)
    (h : Derives .negation ls e) : Derives op.operands ls e := by
  cases op with
  | and => exact h
  | or => exact Derives.single h

theorem Derives.condition {ls : List Lexeme} {e : Expr} (h : Derives .negation ls e) :
    DerivesCondition ls e :=
  Derives.single (h.operands .or)

theorem DerivesCondition.enclosed {ls : List Lexeme} {e : Expr} (h : DerivesCondition ls e) :
    Derives .unary (.openParen :: ls ++ [.closeParen]) e :=
  h.parens.primary

end Phrasebook.Condition
