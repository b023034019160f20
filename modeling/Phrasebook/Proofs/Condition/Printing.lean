import Phrasebook.Proofs.Condition.Recognition
import Phrasebook.Proofs.Condition.Scanning
import Phrasebook.Proofs.Text.Trimming

/-! Conditions written as text. Every operand is written in parentheses, so that the text of a tree
does not depend on where the tree stands. A tree whose names and literals can be written at all
(`Writable`) is read back from its text, and so is every tree that was parsed, unless it holds a
number with a fraction. -/

namespace Phrasebook.Condition

/-! ### The text of a tree -/

/-- A literal as text; the values that no literal stands for have none. -/
def literalText : Value → String
  | .null => "null"
  | .bool b => if b then "true" else "false"
  | .int n => toString n
  | .text s => "'" ++ String.ofList (escape s.toList) ++ "'"
  | _ => ""

mutual

/-- A condition as text. Blanks stand around the operators between two operands. -/
def render : Expr → String
  | .literal v => literalText v
  | .field name => "\x7b" ++ name ++ "\x7d"
  | .negation e => "!(" ++ render e ++ ")"
  | .chain op es => (" " ++ op.symbol ++ " ").intercalate (renderOperands es)
  | .comparison op left right =>
      "(" ++ render left ++ ") " ++ op.symbol ++ " (" ++ render right ++ ")"

def renderOperands : List Expr → List String
  | [] => []
  | e :: es => ("(" ++ render e ++ ")") :: renderOperands es

end

/-- Trees whose text says all of them: chains have at least two operands, literals are null, truth
values, texts and whole numbers short enough to be read, and the name of a field is one that braces
can hold. -/
inductive Writable : Expr → Prop
  | null : Writable (.literal .null)
  | bool (b : Bool) : Writable (.literal (.bool b))
  | int (n : Int) (h : (toString n.natAbs).length ≤ Reading.maxDigits) :
      Writable (.literal (.int n))
  | text (s : String) : Writable (.literal (.text s))
  | field (name : String) (hne : name ≠ "") (hbrace : ∀ c ∈ name.toList, insideField c = true)
      (htrim : Text.trim name.toList = name.toList) : Writable (.field name)
  | negation {e : Expr} (h : Writable e) : Writable (.negation e)
  | chain (op : Connective) {es : List Expr} (hlen : 2 ≤ es.length) (h : ∀ e ∈ es, Writable e) :
      Writable (.chain op es)
  | comparison (op : Comparison) {left right : Expr} (hl : Writable left) (hr : Writable right) :
      Writable (.comparison op left right)

/-- A literal of a tree. -/
inductive Expr.HasLiteral (v : Value) : Expr → Prop
  | literal : HasLiteral v (.literal v)
  | negation {e : Expr} (h : HasLiteral v e) : HasLiteral v (.negation e)
  | chain (op : Connective) {es : List Expr} {e : Expr} (he : e ∈ es) (h : HasLiteral v e) :
      HasLiteral v (.chain op es)
  | left (op : Comparison) {left : Expr} (right : Expr) (h : HasLiteral v left) :
      HasLiteral v (.comparison op left right)
  | right (op : Comparison) (left : Expr) {right : Expr} (h : HasLiteral v right) :
      HasLiteral v (.comparison op left right)

/-! ### Texts that are read as a tree -/

/-- A text that scans as a row of lexemes in front of every delimiter. -/
def Writes (cs : List Char) (ls : List Lexeme) : Prop :=
  ∀ rest ms, Delimited rest → Scans rest ms → Scans (cs ++ rest) (ls ++ ms)

/-- Parentheses delimit on both sides. -/
theorem Writes.enclosed {cs rest : List Char} {ls ms : List Lexeme} (h : Writes cs ls)
    (hrest : Scans rest ms) :
    Scans ('(' :: (cs ++ ')' :: rest)) (.openParen :: (ls ++ .closeParen :: ms)) :=
  scans_open (h _ _ (delimited_closed rest) (scans_close hrest))

/-- A text that is written as lexemes from which the grammar derives a tree. -/
def ReadsAs (text : String) (e : Expr) : Prop :=
  ∃ ls, Writes text.toList ls ∧ DerivesCondition ls e

/-- A text that scans as lexemes of a condition is read as the tree of that condition. -/
theorem Scans.parse {source : String} {ls : List Lexeme} {e : Expr} (h : Scans source.toList ls)
    (he : DerivesCondition ls e) : parse source = .ok e := by
  obtain ⟨hreads, hshort⟩ := h
  obtain ⟨ts, hts, rfl⟩ := hreads 0
  exact parse_eq_ok_iff.2 ⟨ts, hts, parseTokens_eq_ok_iff.2 ⟨he, hshort⟩⟩

theorem ReadsAs.parse {text : String} {e : Expr} (h : ReadsAs text e) : parse text = .ok e := by
  obtain ⟨ls, hwrites, hderives⟩ := h
  have hscans := hwrites [] [] delimited_nil .nil
  rw [List.append_nil, List.append_nil] at hscans
  exact hscans.parse hderives

/-! ### Texts of single operands -/

theorem ReadsAs.operand {text : String} {l : Lexeme} {e : Expr} (hl : Writes text.toList [l])
    (he : Operand l e) : ReadsAs text e :=
  ⟨[l], hl, (Derives.operand he).primary.unary.comparison.condition⟩

theorem readsAs_null : ReadsAs "null" (.literal .null) :=
  .operand (fun _ _ hrest h => scans_word (Or.inl rfl) hrest h) .null

theorem readsAs_bool (b : Bool) : ReadsAs (literalText (.bool b)) (.literal (.bool b)) := by
  cases b with
  | false =>
      exact .operand (fun _ _ hrest h => scans_word (Or.inr (Or.inr rfl)) hrest h) .false
  | true =>
      exact .operand (fun _ _ hrest h => scans_word (Or.inr (Or.inl rfl)) hrest h) .true

theorem readsAs_text (s : String) : ReadsAs (literalText (.text s)) (.literal (.text s)) := by
  have hchars : (literalText (.text s)).toList = '\'' :: escape s.toList ++ ['\''] := by
    simp [literalText, String.toList_append]
  have hoperand := Operand.quoted '\'' (escape s.toList)
  rw [unescape_escape, String.ofList_toList] at hoperand
  refine .operand ?_ hoperand
  intro rest ms _ h
  rw [hchars, List.append_assoc]
  exact scans_quoted s.toList h

theorem readsAs_field {name : String} (hne : name ≠ "")
    (hbrace : ∀ c ∈ name.toList, insideField c = true)
    (htrim : Text.trim name.toList = name.toList) :
    ReadsAs (render (.field name)) (.field name) := by
  have hchars : (render (.field name)).toList = '\x7b' :: name.toList ++ ['\x7d'] := by
    simp [render, String.toList_append]
  have hfull : Text.trim name.toList ≠ [] := by
    rw [htrim]
    exact fun hnil => hne (String.toList_eq_nil_iff.1 hnil)
  have hoperand := Operand.field name.toList hfull
  rw [htrim, String.ofList_toList] at hoperand
  refine .operand ?_ hoperand
  intro rest ms _ h
  rw [hchars, List.append_assoc]
  exact scans_field hbrace h

theorem writes_digits (negative : Bool) {n : Nat} (h : (toString n).length ≤ Reading.maxDigits) :
    Writes ((if negative then ['-'] else []) ++ Nat.toDigits 10 n)
      [.number negative (Nat.toDigits 10 n) none] := by
  intro rest ms hrest hscans
  have hdigits : ∀ c ∈ Nat.toDigits 10 n, c.isDigit = true := fun _ hc =>
    Text.isDigit_of_mem_toDigits hc
  rw [Nat.toString_eq_ofList_toDigits, String.length_ofList] at h
  exact scans_number Nat.toDigits_ne_nil hdigits h hrest hscans

theorem readsAs_int {n : Int} (h : (toString n.natAbs).length ≤ Reading.maxDigits) :
    ReadsAs (literalText (.int n)) (.literal (.int n)) := by
  have hchars : (literalText (.int n)).toList = Text.numeral n := Text.toList_toString n
  by_cases hn : n < 0
  · have hvalue : -(n.natAbs : Int) = n := by omega
    have hoperand := Operand.negative (Nat.toDigits 10 n.natAbs)
    rw [Text.digitsValue_toDigits, hvalue] at hoperand
    rw [Text.numeral, if_pos hn] at hchars
    exact .operand (hchars ▸ writes_digits true h) hoperand
  · have hvalue : (n.natAbs : Int) = n := by omega
    have hoperand := Operand.whole (Nat.toDigits 10 n.natAbs)
    rw [Text.digitsValue_toDigits, hvalue] at hoperand
    rw [Text.numeral, if_neg hn] at hchars
    exact .operand (hchars ▸ writes_digits false h) hoperand

/-! ### Texts of trees with operands -/

theorem ReadsAs.negation {text : String} {e : Expr} (h : ReadsAs text e) :
    ReadsAs ("!(" ++ text ++ ")") (.negation e) := by
  obtain ⟨ls, hwrites, hderives⟩ := h
  refine ⟨_, ?_, hderives.enclosed.bang.unary.comparison.condition⟩
  intro rest ms _ hrest
  have hscans := scans_bang (hwrites.enclosed hrest)
  simpa [String.toList_append] using hscans

theorem ReadsAs.comparison {left right : String} {l r : Expr} (op : Comparison)
    (hl : ReadsAs left l) (hr : ReadsAs right r) :
    ReadsAs ("(" ++ left ++ ") " ++ op.symbol ++ " (" ++ right ++ ")") (.comparison op l r) := by
  obtain ⟨ls, hlwrites, hlderives⟩ := hl
  obtain ⟨rs, hrwrites, hrderives⟩ := hr
  refine ⟨_, ?_, (hlderives.enclosed.compare op hrderives.enclosed).comparison.condition⟩
  intro rest ms _ hrest
  have hscans := hlwrites.enclosed
    (.blank (c := ' ') rfl (scans_compare op (hrwrites.enclosed hrest)))
  simpa [String.toList_append] using hscans

theorem toList_renderOperands_cons (op : Connective) (e next : Expr) (es : List Expr) :
    ((" " ++ op.symbol ++ " ").intercalate (renderOperands (e :: next :: es))).toList =
      '(' :: ((render e).toList ++ ')' :: ' ' :: (op.symbol.toList ++ ' ' ::
        ((" " ++ op.symbol ++ " ").intercalate (renderOperands (next :: es))).toList)) := by
  rw [renderOperands, renderOperands, String.intercalate_cons_cons]
  simp [String.toList_append]

/-- The operands of a chain are written one after the other. -/
theorem readsAs_operands (op : Connective) {es : List Expr} (hne : es ≠ [])
    (h : ∀ e ∈ es, ReadsAs (render e) e) :
    ∃ parts : List (List Lexeme × Expr), parts.map Prod.snd = es ∧
      (∀ part ∈ parts, Derives .unary part.1 part.2) ∧
      ∀ rest ms, Scans rest ms →
        Scans (((" " ++ op.symbol ++ " ").intercalate (renderOperands es)).toList ++ rest)
          ([.operator (.connect op)].intercalate (parts.map Prod.fst) ++ ms) := by
  induction es with
  | nil => exact absurd rfl hne
  | cons e es ih =>
      obtain ⟨ls, hwrites, hderives⟩ := h e List.mem_cons_self
      cases es with
      | nil =>
          refine ⟨[(.openParen :: ls ++ [.closeParen], e)], rfl, ?_, ?_⟩
          · exact List.forall_mem_singleton.2 hderives.enclosed
          · intro rest ms hrest
            have hscans := hwrites.enclosed hrest
            simpa [renderOperands, String.toList_append] using hscans
      | cons next es =>
          obtain ⟨parts, hparts, hall, hscans⟩ := ih (List.cons_ne_nil _ _)
            (fun e' he' => h e' (List.mem_cons_of_mem _ he'))
          cases parts with
          | nil => cases hparts
          | cons part parts =>
              refine ⟨(.openParen :: ls ++ [.closeParen], e) :: part :: parts, ?_, ?_, ?_⟩
              · rw [List.map_cons, hparts]
              · exact List.forall_mem_cons.2 ⟨hderives.enclosed, hall⟩
              · -- the connective scans with the blank behind it, and the next operand follows
                intro rest ms hrest
                have hnext := hwrites.enclosed (.blank (c := ' ') rfl
                  (scans_connect op (hscans rest ms hrest)))
                rw [toList_renderOperands_cons, List.map_cons, List.map_cons,
                  List.intercalate_cons_cons]
                simpa using hnext

theorem Expr.join_of_two_le {es : List Expr} (op : Connective) (h : 2 ≤ es.length) :
    Expr.join op es = .chain op es := by
  unfold Expr.join
  split
  · rw [List.length_singleton] at h
    omega
  · rfl

theorem readsAs_chain (op : Connective) {es : List Expr} (hlen : 2 ≤ es.length)
    (h : ∀ e ∈ es, ReadsAs (render e) e) : ReadsAs (render (.chain op es)) (.chain op es) := by
  have hne : es ≠ [] := by
    rintro rfl
    exact absurd hlen (by decide)
  obtain ⟨parts, hparts, hderives, hscans⟩ := readsAs_operands op hne h
  have hchain := Derives.chain op parts (fun hnil => hne (by rw [← hparts, hnil]; rfl))
    (fun part hp => (hderives part hp).unary.comparison.operands op)
  rw [hparts, Expr.join_of_two_le op hlen] at hchain
  exact ⟨_, fun rest ms _ hrest => hscans rest ms hrest, hchain.whole⟩

/-- **A writable tree is read from its text.** -/
theorem Writable.readsAs {e : Expr} (h : Writable e) : ReadsAs (render e) e := by
  induction h with
  | null => exact readsAs_null
  | bool b => exact readsAs_bool b
  | int n hn => exact readsAs_int hn
  | text s => exact readsAs_text s
  | field name hne hbrace htrim => exact readsAs_field hne hbrace htrim
  | negation _ ih => exact ih.negation
  | chain op hlen _ ih => exact readsAs_chain op hlen ih
  | comparison op _ _ ihl ihr => exact ihl.comparison op ihr

/-! ### Trees that were parsed -/

theorem writable_field {body : List Char} (hbody : Text.trim body ≠ [])
    (hbrace : ∀ c ∈ body, insideField c = true) :
    Writable (.field (String.ofList (Text.trim body))) := by
  refine .field _ ?_ ?_ ?_
  · intro hempty
    exact hbody (String.ofList_eq_empty_iff.1 hempty)
  · intro c hc
    rw [String.toList_ofList] at hc
    exact hbrace c (Text.mem_of_mem_trim hc)
  · rw [String.toList_ofList, Text.trim_trim]

theorem length_digitsValue_le {digits : List Char} (h : digits.length ≤ Reading.maxDigits) :
    (toString (Text.digitsValue digits)).length ≤ Reading.maxDigits := by
  rw [Nat.toString_eq_ofList_toDigits, String.length_ofList]
  exact Text.length_toDigits_digitsValue_le (by decide) h

theorem Operand.writable {l : Lexeme} {e : Expr} (h : Operand l e) (hshort : l.Short)
    (hbrace : l.Braceless) (hreal : ∀ x, ¬ e.HasLiteral (.real x)) : Writable e := by
  cases h with
  | field body hbody => exact writable_field hbody hbrace
  | whole digits =>
      refine .int _ ?_
      rw [Int.natAbs_natCast]
      exact length_digitsValue_le hshort
  | negative digits =>
      refine .int _ ?_
      rw [Int.natAbs_neg, Int.natAbs_natCast]
      exact length_digitsValue_le hshort
  | fraction negative whole digits => exact absurd .literal (hreal _)
  | quoted mark body => exact .text _
  | true => exact .bool _
  | false => exact .bool _
  | null => exact .null
  | undefined => exact .null

/-- **What the grammar derives from lexemes of a text is writable.** -/
theorem Derives.writable {c : Category} {ls : List Lexeme} {e : Expr} (h : Derives c ls e)
    (hls : ∀ l ∈ ls, l.Short ∧ l.Braceless) (hreal : ∀ x, ¬ e.HasLiteral (.real x)) :
    Writable e := by
  induction h with
  | chain op parts hne _ ih =>
      have hparts : ∀ part ∈ parts, (∀ x, ¬ part.2.HasLiteral (.real x)) → Writable part.2 := by
        intro part hp
        exact ih part hp fun l hl => hls l (Text.mem_intercalate (List.mem_map_of_mem hp) hl)
      rcases parts with _ | ⟨part, _ | ⟨next, parts⟩⟩
      · exact absurd rfl hne
      · exact hparts part List.mem_cons_self hreal
      · refine .chain op (by simp) ?_
        intro e he
        rw [← List.map_cons] at he
        obtain ⟨part', hp, rfl⟩ := List.mem_map.1 he
        exact hparts part' hp fun x hx => hreal x (.chain op he hx)
  | not _ ih =>
      exact .negation (ih (fun l hl => hls l (List.mem_cons_of_mem _ hl))
        fun x hx => hreal x hx.negation)
  | comparison _ ih => exact ih hls hreal
  | compare op _ _ ihl ihr =>
      refine .comparison op (ihl ?_ ?_) (ihr ?_ ?_)
      · exact fun l hl => hls l (List.mem_append_left _ hl)
      · exact fun x hx => hreal x (hx.left op _)
      · exact fun l hl => hls l (List.mem_append_right _ (List.mem_cons_of_mem _ hl))
      · exact fun x hx => hreal x (hx.right op _)
  | unary _ ih => exact ih hls hreal
  | bang _ ih =>
      exact .negation (ih (fun l hl => hls l (List.mem_cons_of_mem _ hl))
        fun x hx => hreal x hx.negation)
  | primary _ ih => exact ih hls hreal
  | parens _ ih =>
      exact ih (fun l hl => hls l (List.mem_cons_of_mem _ (List.mem_append_left _ hl))) hreal
  | operand h =>
      obtain ⟨hshort, hbrace⟩ := hls _ List.mem_cons_self
      exact h.writable hshort hbrace hreal

theorem writable_of_parse {source : String} {e : Expr} (h : parse source = .ok e)
    (hreal : ∀ x, ¬ e.HasLiteral (.real x)) : Writable e := by
  obtain ⟨ts, hts, hparse⟩ := parse_eq_ok_iff.1 h
  obtain ⟨hderives, hshort⟩ := parseTokens_eq_ok_iff.1 hparse
  exact hderives.writable (fun l hl => ⟨hshort l hl, braceless_tokensFrom hts l hl⟩) hreal

/-- **Printing and parsing round-trip.** A parsed tree without fractions and every writable tree is
read back from its text. -/
theorem parse_render :
    (∀ source e, parse source = .ok e → (∀ x, ¬ e.HasLiteral (.real x)) →
        parse (render e) = .ok e) ∧
      ∀ e, Writable e → parse (render e) = .ok e := by
  have hwritable : ∀ e, Writable e → parse (render e) = .ok e := fun _ h => h.readsAs.parse
  exact ⟨fun _ e h hreal => hwritable e (writable_of_parse h hreal), hwritable⟩

/-- A negation in front of a field, and a text with an escaped quote. -/
def possessive : Expr :=
  .chain .and [.negation (.field "a"), .literal (.text "it's")]

theorem parse_render_possessive :
    parse "!\x7b a \x7d && 'it\\'s'" = .ok possessive ∧ Writable possessive ∧
      parse (render possessive) = .ok possessive ∧
      parse (render (.negation possessive)) = .ok (.negation possessive) := by
  have hscans : Scans "!\x7b a \x7d && 'it\\'s'".toList
      [.operator .bang, .field [' ', 'a', ' '], .operator (.connect .and),
        .quoted '\'' "it\\'s".toList] :=
    .cons rfl rfl rfl trivial (.cons rfl rfl rfl trivial (.blank rfl
      (.cons rfl rfl rfl trivial (.blank rfl (.cons rfl rfl rfl trivial .nil)))))
  have hderives : DerivesCondition _ possessive := (parseTokens_eq_ok_iff.1 (rfl :
    parseTokens [⟨.operator .bang, 0⟩, ⟨.field [' ', 'a', ' '], 1⟩, ⟨.operator (.connect .and), 7⟩,
      ⟨.quoted '\'' "it\\'s".toList, 10⟩] 17 = .ok possessive)).1
  have hparse : parse "!\x7b a \x7d && 'it\\'s'" = .ok possessive := hscans.parse hderives
  have hreal : ∀ x, ¬ possessive.HasLiteral (.real x) := by
    intro x h
    cases h with
    | chain _ he h =>
        simp only [List.mem_cons, List.not_mem_nil, or_false] at he
        rcases he with rfl | rfl
        · cases h with
          | negation h => cases h
        · cases h
  have hwritable : Writable possessive := writable_of_parse hparse hreal
  exact ⟨hparse, hwritable, parse_render.1 _ _ hparse hreal,
    parse_render.2 _ hwritable.negation⟩

end Phrasebook.Condition
