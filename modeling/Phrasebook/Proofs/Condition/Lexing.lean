import Mathlib.Data.List.TakeWhile
import Phrasebook.Condition.Token
import Phrasebook.Proofs.Text.Decimal

/-! What is read as one lexeme, without the order in which the reader tries the kinds. A lexeme has
one spelling (`Lexeme.WellFormed`), and it is read from the front of a text just when the text goes
on behind that spelling in a way that would not make it longer (`lexeme?_eq_some_iff`). Nothing that
makes a lexeme longer holds a space, so a lexeme that is read is read again when the text behind it
is cut off anywhere, with or without a space in its place (`Lexeme.EndsBefore.cut`). -/

namespace Phrasebook.Condition

/-! ### Lexemes that a text can hold -/

/-- A number's digits, at least one. -/
def Digits (cs : List Char) : Prop :=
  cs ≠ [] ∧ ∀ c ∈ cs, Text.isDigit c = true

/-- The bodies of quoted texts: the mark stands only behind a backslash, and a backslash only in
front of a character that is no line break. -/
inductive Quotable (mark : Char) : List Char → Prop
  | nil : Quotable mark []
  | plain {c : Char} {body : List Char} (hmark : c ≠ mark) (hback : c ≠ '\\')
      (h : Quotable mark body) : Quotable mark (c :: body)
  | escaped {c : Char} {body : List Char} (hbreak : c ≠ '\n') (h : Quotable mark body) :
      Quotable mark ('\\' :: c :: body)

inductive Lexeme.WellFormed : Lexeme → Prop
  | field {body : List Char} (h : ∀ c ∈ body, insideField c = true) : WellFormed (.field body)
  | number (negative : Bool) {whole : List Char} {fraction : Option (List Char)}
      (hwhole : Digits whole) (hfraction : ∀ digits ∈ fraction, Digits digits) :
      WellFormed (.number negative whole fraction)
  | quoted {mark : Char} {body : List Char} (hmark : mark = '\'' ∨ mark = '"')
      (h : Quotable mark body) : WellFormed (.quoted mark body)
  | operator {op : Operator} (h : op ∈ Operator.signs) : WellFormed (.operator op)
  | openParen : WellFormed .openParen
  | closeParen : WellFormed .closeParen
  | name {c : Char} {cs : List Char} (hc : Text.isNameStart c = true)
      (hcs : ∀ c ∈ cs, Text.isWord c = true) : WellFormed (.name (c :: cs))

/-- What makes a lexeme longer when it stands right behind it. -/
inductive Lexeme.Extension : Lexeme → List Char → Prop
  | digit (negative : Bool) (whole : List Char) (fraction : Option (List Char)) {c : Char}
      (h : Text.isDigit c = true) : Extension (.number negative whole fraction) [c]
  | fraction (negative : Bool) (whole : List Char) {c : Char} (h : Text.isDigit c = true) :
      Extension (.number negative whole none) ['.', c]
  | sign {op longer : Operator} {more : List Char} (hlonger : longer ∈ Operator.signs)
      (hne : more ≠ []) (h : longer.symbol.toList = op.symbol.toList ++ more) :
      Extension (.operator op) more
  | word (spelling : List Char) {c : Char} (h : Text.isWord c = true) :
      Extension (.name spelling) [c]

/-- A lexeme is not continued by the text behind it. -/
def Lexeme.EndsBefore (l : Lexeme) (rest : List Char) : Prop :=
  ∀ more, l.Extension more → ¬ more <+: rest

/-! ### Texts behind a lexeme -/

/-- A text that goes on with no lexeme in front of it: it is at its end, or a space or a closing
parenthesis comes next. -/
def Separated (rest : List Char) : Prop :=
  ∀ c ∈ rest.head?, c = ' ' ∨ c = ')'

theorem separated_nil : Separated [] := by
  intro c hc
  cases hc

theorem separated_space (rest : List Char) : Separated (' ' :: rest) := by
  rintro c ⟨⟩
  exact .inl rfl

theorem not_separator_mem_symbol (op : Operator) : ∀ c ∈ op.symbol.toList, c ≠ ' ' ∧ c ≠ ')' := by
  cases op with
  | compare c => cases c <;> simp [Operator.symbol, Comparison.symbol]
  | connect c => cases c <;> simp [Operator.symbol, Connective.symbol]
  | bang => simp [Operator.symbol]
  | not => simp [Operator.symbol]

theorem Lexeme.Extension.not_separator {l : Lexeme} {more : List Char} (h : l.Extension more) :
    more ≠ [] ∧ ∀ c ∈ more, c ≠ ' ' ∧ c ≠ ')' := by
  have hclass : ∀ {p : Char → Bool} {c : Char}, p ' ' = false → p ')' = false → p c = true →
      c ≠ ' ' ∧ c ≠ ')' := by
    intro p c hspace hparen hc
    constructor <;> rintro rfl
    · exact absurd hc (by simp [hspace])
    · exact absurd hc (by simp [hparen])
  cases h with
  | digit _ _ _ h => exact ⟨by simp, by simpa using hclass (by decide) (by decide) h⟩
  | fraction _ _ h => exact ⟨by simp, by simpa using hclass (by decide) (by decide) h⟩
  | @sign op longer more hlonger hne h =>
      refine ⟨hne, fun c hc => not_separator_mem_symbol longer c ?_⟩
      rw [h]
      exact List.mem_append_right _ hc
  | word _ h => exact ⟨by simp, by simpa using hclass (by decide) (by decide) h⟩

/-- A beginning without separators ends in front of the first one. -/
theorem prefix_of_prefix_append {more front tail : List Char}
    (hmore : ∀ c ∈ more, c ≠ ' ' ∧ c ≠ ')') (htail : Separated tail)
    (h : more <+: front ++ tail) : more <+: front := by
  rcases List.prefix_or_prefix_of_prefix h (List.prefix_append front tail) with hshort | hlong
  · exact hshort
  · obtain ⟨reach, rfl⟩ := hlong
    have hreach : reach <+: tail := (List.prefix_append_right_inj front).1 h
    cases reach with
    | nil => simp
    | cons c reach =>
        obtain ⟨rest, rfl⟩ := hreach
        have hc := hmore c (by simp)
        exact absurd (htail c rfl) (by simp [hc])

/-- A lexeme ends wherever the text behind it is cut off or separated. -/
theorem Lexeme.EndsBefore.cut {l : Lexeme} {front rest tail : List Char}
    (h : l.EndsBefore (front ++ rest)) (htail : Separated tail) : l.EndsBefore (front ++ tail) := by
  intro more hmore hprefix
  have hfront := prefix_of_prefix_append hmore.not_separator.2 htail hprefix
  exact h more hmore (hfront.trans (List.prefix_append front rest))

theorem Separated.endsBefore {rest : List Char} (h : Separated rest) (l : Lexeme) :
    l.EndsBefore rest := by
  intro more hmore hprefix
  have hnil : more <+: [] := prefix_of_prefix_append hmore.not_separator.2 h hprefix
  exact hmore.not_separator.1 (List.prefix_nil.1 hnil)

theorem not_singleton_prefix_iff {p : Char → Bool} {rest : List Char} :
    (∀ c, p c = true → ¬ [c] <+: rest) ↔ ∀ c ∈ rest.head?, p c = false := by
  cases rest with
  | nil => simp
  | cons d rest =>
      simp only [List.cons_prefix_cons, List.nil_prefix, and_true, List.head?_cons,
        Option.mem_some_iff, forall_eq', ← Bool.not_eq_true]
      exact ⟨fun h hd => h d hd rfl, fun h c hc heq => h (heq ▸ hc)⟩

/-- A run of characters of a class goes up to the first character that is not of it. -/
theorem span_append {p : Char → Bool} {cs rest : List Char} (hcs : ∀ c ∈ cs, p c = true)
    (hrest : ∀ c ∈ rest.head?, p c = false) :
    (cs ++ rest).takeWhile p = cs ∧ (cs ++ rest).dropWhile p = rest := by
  rw [List.takeWhile_append_of_pos hcs, List.dropWhile_append_of_pos hcs]
  cases rest with
  | nil => simp
  | cons c rest =>
      have hc : ¬ p c = true := by simpa using hrest c rfl
      rw [List.takeWhile_cons_of_neg hc, List.dropWhile_cons_of_neg hc, List.append_nil]
      exact ⟨rfl, rfl⟩

/-! ### Fields -/

theorem field?_eq_some_iff {cs rest : List Char} {l : Lexeme} :
    field? cs = some (l, rest) ↔ ∃ body, l = .field body ∧ (∀ c ∈ body, insideField c = true) ∧
      cs = body ++ '\x7d' :: rest := by
  constructor
  · intro h
    have hspelling := spelling_field? h
    unfold field? at h
    split at h
    · obtain ⟨rfl, rfl⟩ := Prod.mk.inj (Option.some.inj h)
      refine ⟨_, rfl, fun c hc => List.mem_takeWhile_imp hc, ?_⟩
      simpa [Lexeme.spelling] using hspelling
    · cases h
  · rintro ⟨body, rfl, hbody, rfl⟩
    have hclosed : ∀ c ∈ ('\x7d' :: rest).head?, insideField c = false := by
      rintro c ⟨⟩
      decide
    obtain ⟨htake, hdrop⟩ := span_append hbody hclosed
    simp only [field?, htake, hdrop]

/-! ### Numbers -/

theorem fraction?_eq_some_iff {cs digits rest : List Char} :
    fraction? cs = some (digits, rest) ↔
      Digits digits ∧ (∀ c ∈ rest.head?, Text.isDigit c = false) ∧ cs = '.' :: digits ++ rest := by
  constructor
  · intro h
    have hspelling := spelling_fraction? h
    unfold fraction? at h
    split at h
    · next cs =>
        split at h
        · cases h
        · next hne =>
            obtain ⟨rfl, rfl⟩ := Prod.mk.inj (Option.some.inj h)
            exact ⟨⟨by simpa using hne, fun c hc => List.mem_takeWhile_imp hc⟩,
              fun c hc => Text.of_mem_head?_dropWhile hc, hspelling⟩
    · cases h
  · rintro ⟨⟨hne, hdigits⟩, hrest, rfl⟩
    obtain ⟨htake, hdrop⟩ := span_append hdigits hrest
    rw [List.cons_append, fraction?, htake, hdrop, if_neg (by simpa using hne)]

theorem fraction?_eq_none_iff {cs : List Char} :
    fraction? cs = none ↔ ∀ c, Text.isDigit c = true → ¬ ['.', c] <+: cs := by
  constructor
  · rintro h c hc ⟨rest, rfl⟩
    rw [List.cons_append, List.cons_append, fraction?, if_neg (by simp [hc])] at h
    cases h
  · intro h
    cases hfraction : fraction? cs with
    | none => rfl
    | some r =>
        obtain ⟨digits, rest⟩ := r
        obtain ⟨⟨hne, hdigits⟩, -, rfl⟩ := fraction?_eq_some_iff.1 hfraction
        cases digits with
        | nil => exact absurd rfl hne
        | cons c digits =>
            exact absurd (by simp) (h c (hdigits c List.mem_cons_self))

/-- A whole number ends where no digit and no fraction follows. -/
theorem endsBefore_whole_iff {negative : Bool} {whole rest : List Char} :
    (Lexeme.number negative whole none).EndsBefore rest ↔
      (∀ c ∈ rest.head?, Text.isDigit c = false) ∧ fraction? rest = none := by
  rw [← not_singleton_prefix_iff, fraction?_eq_none_iff]
  constructor
  · intro h
    exact ⟨fun c hc => h _ (.digit negative whole none hc),
      fun c hc => h _ (.fraction negative whole hc)⟩
  · rintro ⟨hdigit, hfraction⟩ more hmore
    cases hmore with
    | digit _ _ _ hc => exact hdigit _ hc
    | fraction _ _ hc => exact hfraction _ hc

theorem endsBefore_fraction_iff {negative : Bool} {whole digits rest : List Char} :
    (Lexeme.number negative whole (some digits)).EndsBefore rest ↔
      ∀ c ∈ rest.head?, Text.isDigit c = false := by
  rw [← not_singleton_prefix_iff]
  constructor
  · intro h c hc
    exact h _ (.digit negative whole (some digits) hc)
  · intro h more hmore
    cases hmore with
    | digit _ _ _ hc => exact h _ hc

theorem number?_eq_some_iff {negative : Bool} {cs rest : List Char} {l : Lexeme} :
    number? negative cs = some (l, rest) ↔ ∃ whole fraction, l = .number negative whole fraction ∧
      l.WellFormed ∧ l.EndsBefore rest ∧
        (if negative then ['-'] else []) ++ cs = l.spelling ++ rest := by
  constructor
  · intro h
    have hspelling := (spelling_number? h).1
    unfold number? at h
    dsimp only at h
    split at h
    · cases h
    · next hne =>
        have hwhole : Digits (cs.takeWhile Text.isDigit) :=
          ⟨by simpa using hne, fun c hc => List.mem_takeWhile_imp hc⟩
        split at h
        · next digits r hfraction =>
            obtain ⟨rfl, rfl⟩ := Prod.mk.inj (Option.some.inj h)
            obtain ⟨hdigits, hrest, -⟩ := fraction?_eq_some_iff.1 hfraction
            refine ⟨_, some digits, rfl, .number negative hwhole ?_,
              endsBefore_fraction_iff.2 hrest, hspelling⟩
            rintro _ ⟨⟩
            exact hdigits
        · next hfraction =>
            obtain ⟨rfl, rfl⟩ := Prod.mk.inj (Option.some.inj h)
            exact ⟨_, none, rfl, .number negative hwhole (by simp),
              endsBefore_whole_iff.2 ⟨fun c hc => Text.of_mem_head?_dropWhile hc, hfraction⟩,
              hspelling⟩
  · rintro ⟨whole, fraction, rfl, hwell, hends, hspelling⟩
    simp only [Lexeme.spelling, List.append_assoc, List.append_cancel_left_eq] at hspelling
    subst hspelling
    cases hwell with
    | number _ hwhole hfraction =>
        have hfull : ¬ whole.isEmpty = true := by simpa using hwhole.1
        cases fraction with
        | none =>
            obtain ⟨hdigit, hpoint⟩ := endsBefore_whole_iff.1 hends
            obtain ⟨htake, hdrop⟩ := span_append hwhole.2 hdigit
            simp only [List.nil_append, number?, htake, hdrop, hpoint, if_neg hfull]
        | some digits =>
            have hpoint : fraction? ('.' :: digits ++ rest) = some (digits, rest) :=
              fraction?_eq_some_iff.2
                ⟨hfraction digits rfl, endsBefore_fraction_iff.1 hends, rfl⟩
            have hstop : ∀ c ∈ ('.' :: digits ++ rest).head?, Text.isDigit c = false := by
              rintro c ⟨⟩
              decide
            obtain ⟨htake, hdrop⟩ := span_append hwhole.2 hstop
            simp only [number?, htake, hdrop, hpoint, if_neg hfull]

/-! ### Quoted texts -/

theorem quotedBody?_cons {mark c : Char} (hmark : c ≠ mark) (hc : c ≠ '\\') (cs : List Char) :
    quotedBody? mark (c :: cs) = (quotedBody? mark cs).map fun r => (c :: r.1, r.2) := by
  cases cs with
  | nil => simp [quotedBody?, hmark]
  | cons d cs => rw [quotedBody?, if_neg hmark, if_neg hc]

theorem quotable_of_quotedBody? {mark : Char} {cs body rest : List Char}
    (h : quotedBody? mark cs = some (body, rest)) : Quotable mark body := by
  fun_induction quotedBody? mark cs generalizing body with
  | case1 => cases h
  | case2 =>
      obtain ⟨rfl, -⟩ := Prod.mk.inj (Option.some.inj h)
      exact .nil
  | case3 => cases h
  | case4 =>
      obtain ⟨rfl, -⟩ := Prod.mk.inj (Option.some.inj h)
      exact .nil
  | case5 => cases h
  | case6 d cs hbreak _ ih =>
      obtain ⟨r, hr, he⟩ := Option.map_eq_some_iff.1 h
      obtain ⟨rfl, rfl⟩ := Prod.mk.inj he
      exact .escaped hbreak (ih hr)
  | case7 c d cs hmark hback ih =>
      obtain ⟨r, hr, he⟩ := Option.map_eq_some_iff.1 h
      obtain ⟨rfl, rfl⟩ := Prod.mk.inj he
      exact .plain hmark hback (ih hr)

theorem quotedBody?_eq_some_iff {mark : Char} {cs body rest : List Char} (hmark : mark ≠ '\\') :
    quotedBody? mark cs = some (body, rest) ↔ Quotable mark body ∧ cs = body ++ mark :: rest := by
  constructor
  · intro h
    exact ⟨quotable_of_quotedBody? h, spelling_quotedBody? h⟩
  · rintro ⟨hbody, rfl⟩
    induction hbody with
    | nil => cases rest <;> simp [quotedBody?]
    | plain hne hback _ ih =>
        rw [List.cons_append, quotedBody?_cons hne hback, ih]
        rfl
    | escaped hbreak _ ih =>
        rw [List.cons_append, List.cons_append, quotedBody?, if_neg hmark.symm, if_pos rfl,
          if_neg hbreak, ih]
        rfl

/-! ### Operators -/

/-- The list of operators tries a longer one before one that it continues. -/
theorem signs_longest_first :
    Operator.signs.Pairwise fun op later => ¬ op.symbol.toList <+: later.symbol.toList := by
  decide

theorem behind?_append (start rest : List Char) : behind? start (start ++ rest) = some rest := by
  induction start with
  | nil => rfl
  | cons s start ih => rw [List.cons_append, behind?, if_pos rfl, ih]

theorem behind?_eq_none_iff {start cs : List Char} : behind? start cs = none ↔ ¬ start <+: cs := by
  constructor
  · rintro h ⟨rest, rfl⟩
    rw [behind?_append] at h
    cases h
  · intro h
    cases hbehind : behind? start cs with
    | none => rfl
    | some rest => exact absurd ⟨rest, (eq_append_of_behind? hbehind).symm⟩ h

/-- What the order of the operators means for one of them. -/
theorem signs_split {op : Operator} {front back : List Operator}
    (h : Operator.signs = front ++ op :: back) :
    (∀ earlier ∈ front, ¬ earlier.symbol.toList <+: op.symbol.toList) ∧
      ∀ later ∈ back, ¬ op.symbol.toList <+: later.symbol.toList := by
  have horder := signs_longest_first
  rw [h] at horder
  obtain ⟨-, hback, hfront⟩ := List.pairwise_append.1 horder
  exact ⟨fun earlier hearlier => hfront earlier hearlier op List.mem_cons_self,
    (List.pairwise_cons.1 hback).1⟩

/-- An operator is not continued if none of those that are tried before it fits the text. -/
theorem endsBefore_operator {op : Operator} {front back : List Operator} {rest : List Char}
    (hsplit : Operator.signs = front ++ op :: back)
    (hfront : ∀ earlier ∈ front, ¬ earlier.symbol.toList <+: op.symbol.toList ++ rest) :
    (Lexeme.operator op).EndsBefore rest := by
  intro more hmore hprefix
  cases hmore with
  | @sign _ longer _ hlonger hne hspelling =>
      rw [hsplit, List.mem_append, List.mem_cons] at hlonger
      rcases hlonger with hearlier | rfl | hlater
      · refine hfront longer hearlier ?_
        rw [hspelling]
        exact (List.prefix_append_right_inj _).2 hprefix
      · exact hne (List.self_eq_append_right.1 hspelling)
      · exact (signs_split hsplit).2 longer hlater ⟨more, hspelling.symm⟩

theorem Lexeme.EndsBefore.not_earlier {op : Operator} {front back : List Operator}
    {rest : List Char} (h : (Lexeme.operator op).EndsBefore rest)
    (hsplit : Operator.signs = front ++ op :: back) :
    ∀ earlier ∈ front, ¬ earlier.symbol.toList <+: op.symbol.toList ++ rest := by
  intro earlier hearlier hfits
  have hdifferent := (signs_split hsplit).1 earlier hearlier
  rcases List.prefix_or_prefix_of_prefix hfits (List.prefix_append _ rest) with hshort | hlong
  · exact hdifferent hshort
  · -- the earlier one is longer, and what it has more stands in the rest
    obtain ⟨more, hmore⟩ := hlong
    have hne : more ≠ [] := by
      rintro rfl
      exact hdifferent (by simp [← hmore])
    have hmem : earlier ∈ Operator.signs := by
      rw [hsplit]
      exact List.mem_append_left _ hearlier
    rw [← hmore, List.prefix_append_right_inj] at hfits
    exact h more (.sign hmem hne hmore.symm) hfits

/-- **The longest operator wins.** -/
theorem operator?_eq_some_iff {cs rest : List Char} {l : Lexeme} :
    operator? cs = some (l, rest) ↔ ∃ op, l = .operator op ∧ op ∈ Operator.signs ∧
      l.EndsBefore rest ∧ cs = op.symbol.toList ++ rest := by
  unfold operator?
  rw [List.findSome?_eq_some_iff]
  constructor
  · rintro ⟨front, op, back, hsplit, hop, hnone⟩
    obtain ⟨r, hr, he⟩ := Option.map_eq_some_iff.1 hop
    obtain ⟨rfl, rfl⟩ := Prod.mk.inj he
    have hcs := eq_append_of_behind? hr
    refine ⟨op, rfl, by simp [hsplit], endsBefore_operator hsplit fun earlier hearlier => ?_, hcs⟩
    rw [← hcs]
    exact behind?_eq_none_iff.1 (Option.map_eq_none_iff.1 (hnone earlier hearlier))
  · rintro ⟨op, rfl, hop, hends, rfl⟩
    obtain ⟨front, back, hsplit⟩ := List.append_of_mem hop
    refine ⟨front, op, back, hsplit, by rw [behind?_append]; rfl, fun earlier hearlier => ?_⟩
    rw [Option.map_eq_none_iff, behind?_eq_none_iff]
    exact hends.not_earlier hsplit earlier hearlier

/-! ### All kinds of lexemes -/

theorem endsBefore_field (body rest : List Char) : (Lexeme.field body).EndsBefore rest := by
  intro more hmore
  cases hmore

theorem endsBefore_quoted (mark : Char) (body rest : List Char) :
    (Lexeme.quoted mark body).EndsBefore rest := by
  intro more hmore
  cases hmore

theorem endsBefore_openParen (rest : List Char) : Lexeme.openParen.EndsBefore rest := by
  intro more hmore
  cases hmore

theorem endsBefore_closeParen (rest : List Char) : Lexeme.closeParen.EndsBefore rest := by
  intro more hmore
  cases hmore

theorem endsBefore_name_iff {spelling rest : List Char} :
    (Lexeme.name spelling).EndsBefore rest ↔ ∀ c ∈ rest.head?, Text.isWord c = false := by
  rw [← not_singleton_prefix_iff]
  constructor
  · intro h c hc
    exact h _ (.word spelling hc)
  · intro h more hmore
    cases hmore with
    | word _ hc => exact h _ hc

/-- The first character of a bare name. -/
theorem range_of_isNameStart {c : Char} (h : Text.isNameStart c = true) :
    0x41 ≤ c.toNat ∧ c.toNat ≤ 0x7a := by
  rcases Bool.or_eq_true_iff.1 h with hletter | hline
  · rcases Bool.or_eq_true_iff.1 hletter with hupper | hlower
    · have hrange : 0x41 ≤ c.toNat ∧ c.toNat ≤ 0x5a := of_decide_eq_true hupper
      omega
    · obtain ⟨hlow, hhigh⟩ := Bool.and_eq_true_iff.1 hlower
      have hlow : 0x61 ≤ c.toNat := of_decide_eq_true hlow
      have hhigh : c.toNat ≤ 0x7a := of_decide_eq_true hhigh
      omega
  · rw [beq_iff_eq.1 hline]
    decide

theorem lexeme?_operator {op : Operator} (hop : op ∈ Operator.signs) (rest : List Char) :
    lexeme? (op.symbol.toList ++ rest) = operator? (op.symbol.toList ++ rest) := by
  cases op with
  | compare c => cases c <;> rfl
  | connect c => cases c <;> rfl
  | bang => rfl
  | not => exact absurd hop (by decide)

theorem wellFormed_lexeme? {cs rest : List Char} {l : Lexeme} (h : lexeme? cs = some (l, rest)) :
    l.WellFormed ∧ l.EndsBefore rest := by
  cases cs with
  | nil => cases h
  | cons c cs =>
      simp only [lexeme?] at h
      split at h
      · obtain ⟨body, rfl, hbody, -⟩ := field?_eq_some_iff.1 h
        exact ⟨.field hbody, endsBefore_field body rest⟩
      split at h
      · obtain ⟨whole, fraction, rfl, hwell, hends, -⟩ := number?_eq_some_iff.1 h
        exact ⟨hwell, hends⟩
      split at h
      · obtain ⟨whole, fraction, rfl, hwell, hends, -⟩ := number?_eq_some_iff.1 h
        exact ⟨hwell, hends⟩
      split at h
      · next hmark =>
          obtain ⟨r, hr, he⟩ := Option.map_eq_some_iff.1 h
          cases he
          exact ⟨.quoted hmark (quotable_of_quotedBody? hr), endsBefore_quoted _ _ _⟩
      split at h
      · cases h
        exact ⟨.openParen, endsBefore_openParen _⟩
      split at h
      · cases h
        exact ⟨.closeParen, endsBefore_closeParen _⟩
      split at h
      · next hstart =>
          cases h
          exact ⟨.name hstart fun c hc => List.mem_takeWhile_imp hc,
            endsBefore_name_iff.2 fun c hc => Text.of_mem_head?_dropWhile hc⟩
      · obtain ⟨op, rfl, hop, hends, -⟩ := operator?_eq_some_iff.1 h
        exact ⟨.operator hop, hends⟩

theorem lexeme?_of_wellFormed {l : Lexeme} {rest : List Char} (hl : l.WellFormed)
    (hends : l.EndsBefore rest) : lexeme? (l.spelling ++ rest) = some (l, rest) := by
  cases hl with
  | @field body hbody =>
      have hfield : field? (body ++ '\x7d' :: rest) = some (.field body, rest) :=
        field?_eq_some_iff.2 ⟨body, rfl, hbody, rfl⟩
      simpa [Lexeme.spelling, lexeme?] using hfield
  | @number negative whole fraction hwhole hfraction =>
      have hnumber : ∀ cs, (if negative then ['-'] else []) ++ cs =
          (Lexeme.number negative whole fraction).spelling ++ rest →
          number? negative cs = some (.number negative whole fraction, rest) := fun cs hcs =>
        number?_eq_some_iff.2
          ⟨whole, fraction, rfl, .number negative hwhole hfraction, hends, hcs⟩
      cases negative with
      | true => exact hnumber _ rfl
      | false =>
          cases whole with
          | nil => exact absurd rfl hwhole.1
          | cons c whole =>
              have hdigit := hwhole.2 c List.mem_cons_self
              have hbrace : c ≠ '\x7b' := by
                rintro rfl
                exact absurd hdigit (by decide)
              have hminus : c ≠ '-' := by
                rintro rfl
                exact absurd hdigit (by decide)
              have hfirst : ∀ cs, lexeme? (c :: cs) = number? false (c :: cs) := fun cs => by
                rw [lexeme?, if_neg hbrace, if_neg hminus, if_pos hdigit]
              exact (hfirst _).trans (hnumber _ rfl)
  | @quoted mark body hmark hbody =>
      have hquoted : quotedBody? mark (body ++ mark :: rest) = some (body, rest) :=
        (quotedBody?_eq_some_iff (by rcases hmark with rfl | rfl <;> decide)).2 ⟨hbody, rfl⟩
      have hfirst : lexeme? (mark :: (body ++ mark :: rest)) =
          (quotedBody? mark (body ++ mark :: rest)).map fun r => (.quoted mark r.1, r.2) := by
        rcases hmark with rfl | rfl <;> rfl
      rw [hquoted] at hfirst
      simpa [Lexeme.spelling] using hfirst
  | operator hop =>
      rw [Lexeme.spelling, lexeme?_operator hop]
      exact operator?_eq_some_iff.2 ⟨_, rfl, hop, hends, rfl⟩
  | openParen => rfl
  | closeParen => rfl
  | @name c cs hc hcs =>
      have hrange := range_of_isNameStart hc
      have hdigit : ¬ Text.isDigit c = true := fun hdigit => by
        have := Text.range_of_isDigit hdigit
        omega
      have hother : ∀ d : Char, d.toNat < 0x41 ∨ 0x7a < d.toNat → c ≠ d := by
        rintro d hd rfl
        omega
      obtain ⟨htake, hdrop⟩ := span_append hcs (endsBefore_name_iff.1 hends)
      simp only [Lexeme.spelling, List.cons_append, lexeme?, if_neg (hother '\x7b' (by decide)),
        if_neg (hother '-' (by decide)), if_neg hdigit,
        if_neg (not_or.2 ⟨hother '\'' (by decide), hother '"' (by decide)⟩),
        if_neg (hother '(' (by decide)), if_neg (hother ')' (by decide)), if_pos hc, htake, hdrop]

/-- **What is read as one lexeme.** -/
theorem lexeme?_eq_some_iff {cs rest : List Char} {l : Lexeme} :
    lexeme? cs = some (l, rest) ↔ cs = l.spelling ++ rest ∧ l.WellFormed ∧ l.EndsBefore rest := by
  constructor
  · intro h
    exact ⟨(spelling_lexeme? h).1, wellFormed_lexeme? h⟩
  · rintro ⟨rfl, hl, hends⟩
    exact lexeme?_of_wellFormed hl hends

/-- No lexeme begins with a blank. -/
theorem Lexeme.WellFormed.exists_spelling {l : Lexeme} (h : l.WellFormed) :
    ∃ c cs, l.spelling = c :: cs ∧ Text.isBlank c = false := by
  cases h with
  | field _ => exact ⟨_, _, rfl, rfl⟩
  | @number negative whole fraction hwhole _ =>
      cases negative with
      | true => exact ⟨_, _, rfl, rfl⟩
      | false =>
          cases whole with
          | nil => exact absurd rfl hwhole.1
          | cons c whole =>
              exact ⟨c, _, rfl, Text.isBlank_of_isDigit (hwhole.2 c List.mem_cons_self)⟩
  | quoted hmark _ => rcases hmark with rfl | rfl <;> exact ⟨_, _, rfl, rfl⟩
  | @operator op hop =>
      cases op with
      | compare c => cases c <;> exact ⟨_, _, rfl, rfl⟩
      | connect c => cases c <;> exact ⟨_, _, rfl, rfl⟩
      | bang => exact ⟨_, _, rfl, rfl⟩
      | not => exact absurd hop (by decide)
  | openParen => exact ⟨_, _, rfl, rfl⟩
  | closeParen => exact ⟨_, _, rfl, rfl⟩
  | @name c cs hc _ =>
      have hrange := range_of_isNameStart hc
      refine ⟨c, cs, rfl, ?_⟩
      unfold Text.isBlank
      simp only [Bool.or_eq_false_iff, Bool.and_eq_false_iff, decide_eq_false_iff_not,
        beq_eq_false_iff_ne]
      omega

theorem tokensFrom_of_lexeme? {position : Nat} {c : Char} {cs rest : List Char} {l : Lexeme}
    (hc : ¬ Text.isBlank c = true) (hl : lexeme? (c :: cs) = some (l, rest)) :
    tokensFrom position (c :: cs) =
      (tokensFrom (position + l.spelling.length) rest).map (⟨l.resolved, position⟩ :: ·) := by
  rw [tokensFrom, if_neg hc]
  split
  · next hnone =>
      rw [hl] at hnone
      cases hnone
  · next l' rest' hsome =>
      rw [hl] at hsome
      cases hsome
      rfl

/-- Behind a lexeme the reading goes on at the position where its spelling ends. -/
theorem tokensFrom_spelling_append {l : Lexeme} (hl : l.WellFormed) {rest : List Char}
    (hends : l.EndsBefore rest) (position : Nat) :
    tokensFrom position (l.spelling ++ rest) =
      (tokensFrom (position + l.spelling.length) rest).map (⟨l.resolved, position⟩ :: ·) := by
  have hread := lexeme?_of_wellFormed hl hends
  obtain ⟨c, cs, hspelling, hblank⟩ := hl.exists_spelling
  rw [hspelling, List.cons_append] at hread ⊢
  rw [tokensFrom_of_lexeme? (by simp [hblank]) hread, hspelling]

end Phrasebook.Condition
