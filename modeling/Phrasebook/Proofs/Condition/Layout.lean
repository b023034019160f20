import Phrasebook.Condition.Parser
import Phrasebook.Proofs.Condition.Lexing

/-! Where the tokens of a text stand. A reading returns just the rows of tokens that the text is
laid out as (`tokensFrom_eq_ok_iff`). Such a row may be cut between two tokens and continued by
another text behind a space (`Laid.cut`), and its lexemes are read again from their own texts with
single spaces between them (`laid_spaced`). -/

namespace Phrasebook.Condition

/-! ### Readings of whole texts -/

/-- A text from a position on is these tokens, and blanks between them. -/
inductive Laid : Nat → List Char → List Token → Prop
  | nil (position : Nat) : Laid position [] []
  | blank {position : Nat} {c : Char} {cs : List Char} {ts : List Token}
      (hc : Text.isBlank c = true) (h : Laid (position + 1) cs ts) : Laid position (c :: cs) ts
  | token {position : Nat} {l : Lexeme} {rest : List Char} {ts : List Token} (hl : l.WellFormed)
      (hends : l.EndsBefore rest) (h : Laid (position + l.spelling.length) rest ts) :
      Laid position (l.spelling ++ rest) (⟨l.resolved, position⟩ :: ts)

theorem Laid.tokensFrom {position : Nat} {cs : List Char} {ts : List Token}
    (h : Laid position cs ts) : tokensFrom position cs = .ok ts := by
  induction h with
  | nil position => rw [Condition.tokensFrom]
  | blank hc _ ih => rw [Condition.tokensFrom, if_pos hc, ih]
  | token hl hends _ ih =>
      rw [tokensFrom_spelling_append hl hends, ih]
      rfl

theorem tokensFrom_of_lexeme?_eq_none {position : Nat} {c : Char} {cs : List Char}
    (hc : ¬ Text.isBlank c = true) (hnone : lexeme? (c :: cs) = none) :
    tokensFrom position (c :: cs) = .error ⟨c, position⟩ := by
  rw [tokensFrom, if_neg hc]
  split
  · rfl
  · next hsome =>
      rw [hnone] at hsome
      cases hsome

/-- A reading gets to the end of its text, or to a character that starts no lexeme. -/
theorem laid_or_unreadable (position : Nat) (cs : List Char) :
    (∃ ts, Laid position cs ts) ∨ ∃ front c rest ts, cs = front ++ c :: rest ∧
      tokensFrom position cs = .error ⟨c, position + front.length⟩ ∧ Text.isBlank c = false ∧
        Laid position front ts := by
  induction position, cs using tokensFrom.induct with
  | case1 position => exact .inl ⟨[], .nil position⟩
  | case2 position c cs hc ih =>
      rcases ih with ⟨ts, hts⟩ | ⟨front, d, rest, ts, rfl, herror, hd, hts⟩
      · exact .inl ⟨ts, .blank hc hts⟩
      · refine .inr ⟨c :: front, d, rest, ts, rfl, ?_, hd, .blank hc hts⟩
        rw [tokensFrom, if_pos hc, herror, List.length_cons, Nat.add_assoc, Nat.add_comm 1]
  | case3 position c cs hc hnone =>
      exact .inr ⟨[], c, cs, [], rfl, tokensFrom_of_lexeme?_eq_none hc hnone, by simpa using hc,
        .nil position⟩
  | case4 position c cs hc l rest hsome ih =>
      obtain ⟨hspelling, hl, hends⟩ := lexeme?_eq_some_iff.1 hsome
      rw [hspelling]
      rcases ih with ⟨ts, hts⟩ | ⟨front, d, rest, ts, rfl, herror, hd, hts⟩
      · exact .inl ⟨_, .token hl hends hts⟩
      -- the lexeme ended in front of a longer text, so it does where that text is cut off
      · have hcut : l.EndsBefore front := by
          have hcut := hends.cut separated_nil
          rwa [List.append_nil] at hcut
        refine .inr ⟨l.spelling ++ front, d, rest, _, by rw [List.append_assoc], ?_, hd,
          .token hl hcut hts⟩
        rw [tokensFrom_spelling_append hl hends, herror, List.length_append, Nat.add_assoc]
        rfl

/-- **What a reading returns.** -/
theorem tokensFrom_eq_ok_iff {position : Nat} {cs : List Char} {ts : List Token} :
    tokensFrom position cs = .ok ts ↔ Laid position cs ts := by
  constructor
  · intro h
    rcases laid_or_unreadable position cs with ⟨ts', hlaid⟩ | ⟨_, _, _, _, _, herror, _⟩
    · rw [hlaid.tokensFrom] at h
      cases h
      exact hlaid
    · rw [herror] at h
      cases h
  · exact Laid.tokensFrom

/-! ### Positions -/

theorem Laid.position_mem {position : Nat} {cs : List Char} {ts : List Token}
    (h : Laid position cs ts) :
    ∀ t ∈ ts, position ≤ t.position ∧ t.position < position + cs.length := by
  induction h with
  | nil => exact List.forall_mem_nil _
  | blank _ _ ih =>
      intro t ht
      have hmem := ih t ht
      rw [List.length_cons]
      omega
  | @token position l rest ts hl _ _ ih =>
      obtain ⟨c, cs, hspelling, -⟩ := hl.exists_spelling
      have hlength : 0 < l.spelling.length := by simp [hspelling]
      rw [List.length_append]
      refine List.forall_mem_cons.2 ⟨⟨Nat.le_refl _, by dsimp only; omega⟩, fun t ht => ?_⟩
      have hmem := ih t ht
      omega

theorem Laid.increasing {position : Nat} {cs : List Char} {ts : List Token}
    (h : Laid position cs ts) : ts.Pairwise fun t next => t.position < next.position := by
  induction h with
  | nil => exact .nil
  | blank _ _ ih => exact ih
  | @token position l rest ts hl _ hrest ih =>
      obtain ⟨c, cs, hspelling, -⟩ := hl.exists_spelling
      have hlength : 0 < l.spelling.length := by simp [hspelling]
      refine .cons (fun next hnext => ?_) ih
      have hmem := (hrest.position_mem next hnext).1
      dsimp only
      omega

/-- A row of tokens may be cut in two, and go on behind the cut with any text that is separated
from it. -/
theorem Laid.cut {position : Nat} {cs : List Char} {front back : List Token}
    (h : Laid position cs (front ++ back)) :
    ∃ before after, cs = before ++ after ∧ Laid (position + before.length) after back ∧
      (∀ t ∈ back.head?, t.position = position + before.length) ∧ (back = [] → after = []) ∧
        ∀ tail ts, Separated tail → Laid (position + before.length) tail ts →
          Laid position (before ++ tail) (front ++ ts) := by
  generalize hts : front ++ back = ts at h
  induction h generalizing front with
  | nil position =>
      obtain ⟨rfl, rfl⟩ := List.append_eq_nil_iff.1 hts
      exact ⟨[], [], rfl, .nil position, by simp, fun _ => rfl, fun _ _ _ htail => htail⟩
  | @blank position c cs ts hc _ ih =>
      obtain ⟨before, after, rfl, hafter, hnext, hend, hgoes⟩ := ih hts
      have hplace : position + 1 + before.length = position + (c :: before).length := by
        rw [List.length_cons]
        omega
      rw [hplace] at hafter hnext hgoes
      exact ⟨c :: before, after, rfl, hafter, hnext, hend,
        fun tail ts htail hlaid => .blank hc (hgoes tail ts htail hlaid)⟩
  | @token position l rest ts hl hends hrest ih =>
      cases front with
      | nil =>
          rw [List.nil_append] at hts
          rw [hts]
          refine ⟨[], _, rfl, .token hl hends hrest, ?_, by simp, fun _ _ _ htail => htail⟩
          rintro t ⟨⟩
          rfl
      | cons t front =>
          obtain ⟨rfl, hback⟩ := List.cons.inj hts
          obtain ⟨before, after, rfl, hafter, hnext, hend, hgoes⟩ := ih hback
          have hplace : position + l.spelling.length + before.length =
              position + (l.spelling ++ before).length := by
            rw [List.length_append]
            omega
          rw [hplace] at hafter hnext hgoes
          refine ⟨l.spelling ++ before, after, by rw [List.append_assoc], hafter, hnext, hend, ?_⟩
          intro tail ts htail hlaid
          rw [List.append_assoc]
          exact .token hl (hends.cut htail) (hgoes tail ts htail hlaid)

/-! ### Lexemes read again -/

/-- A reading can return this lexeme. -/
def Lexeme.Readable (l : Lexeme) : Prop :=
  ∃ read : Lexeme, read.WellFormed ∧ read.spelling = l.spelling ∧ read.resolved = l

/-- The word of a connective is read again from its signs, the word `not` from itself. -/
theorem Lexeme.WellFormed.readable {l : Lexeme} (h : l.WellFormed) : l.resolved.Readable := by
  cases h with
  | @name c cs hc hcs =>
      cases hop : wordOperator? (c :: cs) with
      | none =>
          have hsame : (Lexeme.name (c :: cs)).resolved = .name (c :: cs) := by
            simp only [Lexeme.resolved, hop]
          rw [hsame]
          exact ⟨.name (c :: cs), .name hc hcs, rfl, hsame⟩
      | some op =>
          have hword : (Lexeme.name (c :: cs)).resolved = .operator op := by
            simp only [Lexeme.resolved, hop]
          rw [hword]
          unfold wordOperator? at hop
          split at hop
          · cases hop
            exact ⟨.operator (.connect .and), .operator (by decide), rfl, rfl⟩
          split at hop
          · cases hop
            exact ⟨.operator (.connect .or), .operator (by decide), rfl, rfl⟩
          split at hop
          · cases hop
            exact ⟨.name "not".toList, .name rfl (List.all_eq_true.1 rfl), rfl, rfl⟩
          · cases hop
  | field hbody => exact ⟨_, .field hbody, rfl, rfl⟩
  | number negative hwhole hfraction => exact ⟨_, .number negative hwhole hfraction, rfl, rfl⟩
  | quoted hmark hbody => exact ⟨_, .quoted hmark hbody, rfl, rfl⟩
  | operator hop => exact ⟨_, .operator hop, rfl, rfl⟩
  | openParen => exact ⟨_, .openParen, rfl, rfl⟩
  | closeParen => exact ⟨_, .closeParen, rfl, rfl⟩

theorem Laid.readable {position : Nat} {cs : List Char} {ts : List Token}
    (h : Laid position cs ts) : ∀ l ∈ ts.map Token.lexeme, l.Readable := by
  induction h with
  | nil => exact List.forall_mem_nil _
  | blank _ _ ih => exact ih
  | token hl _ _ ih => exact List.forall_mem_cons.2 ⟨hl.readable, ih⟩

/-- Lexemes as text, with single spaces between them. -/
def spaced (ls : List Lexeme) : String :=
  " ".intercalate (ls.map Lexeme.text)

theorem toList_spaced_singleton (l : Lexeme) : (spaced [l]).toList = l.spelling := by
  simp [spaced, Lexeme.text]

theorem toList_spaced_cons (l next : Lexeme) (ls : List Lexeme) :
    (spaced (l :: next :: ls)).toList = l.spelling ++ ' ' :: (spaced (next :: ls)).toList := by
  simp [spaced, String.intercalate_cons_cons, String.toList_append, Lexeme.text]

theorem laid_spaced {ls : List Lexeme} (h : ∀ l ∈ ls, l.Readable) (position : Nat) :
    ∃ ts, Laid position (spaced ls).toList ts ∧ ts.map Token.lexeme = ls := by
  induction ls generalizing position with
  | nil => exact ⟨[], .nil position, rfl⟩
  | cons l ls ih =>
      obtain ⟨hl, hls⟩ := List.forall_mem_cons.1 h
      obtain ⟨read, hread, hspelling, rfl⟩ := hl
      cases ls with
      | nil =>
          rw [toList_spaced_singleton, ← hspelling, ← List.append_nil read.spelling]
          exact ⟨_, .token hread (separated_nil.endsBefore read) (.nil _), rfl⟩
      | cons next ls =>
          obtain ⟨ts, hts, hlexemes⟩ := ih hls (position + read.spelling.length + 1)
          rw [toList_spaced_cons, ← hspelling]
          exact ⟨_, .token hread ((separated_space _).endsBefore read) (.blank rfl hts),
            by rw [List.map_cons, hlexemes]⟩

/-! ### Spellings in the source -/

/-- How a lexeme stands in a source: as its text, or as the word of its connective. -/
inductive Lexeme.SpelledAs : Lexeme → List Char → Prop
  | text (l : Lexeme) : SpelledAs l l.text.toList
  | and : SpelledAs (.operator (.connect .and)) "and".toList
  | or : SpelledAs (.operator (.connect .or)) "or".toList

theorem Lexeme.spelledAs_resolved (l : Lexeme) : l.resolved.SpelledAs l.spelling := by
  have hsame : l.SpelledAs l.spelling := by
    have htext := SpelledAs.text l
    rwa [Lexeme.text, String.toList_ofList] at htext
  cases l with
  | name spelling =>
      rw [Lexeme.resolved, Lexeme.spelling]
      cases hop : wordOperator? spelling with
      | none => exact hsame
      | some op =>
          unfold wordOperator? at hop
          split at hop
          · next hand =>
              cases hop
              rw [hand]
              exact .and
          split at hop
          · next hor =>
              cases hop
              rw [hor]
              exact .or
          split at hop
          · next hnot =>
              cases hop
              rw [hnot]
              exact .text (.operator .not)
          · cases hop
  | _ => exact hsame

/-- Tokens with their spellings cover a source from a place on: each spelling stands at the position
of its token, none reaches into the next, and all other characters are blank. -/
structure Layout (source : List Char) (start : Nat) (spans : List (Token × List Char)) : Prop where
  spelled : ∀ span ∈ spans, span.1.lexeme.SpelledAs span.2
  placed : ∀ span ∈ spans, span.2 <+: source.drop span.1.position
  apart : spans.Pairwise fun span next => span.1.position + span.2.length ≤ next.1.position
  blank : ∀ place c, start ≤ place → source[place]? = some c →
    (∀ span ∈ spans, place < span.1.position ∨ span.1.position + span.2.length ≤ place) →
      Text.isBlank c = true

theorem Laid.layout {position : Nat} {cs : List Char} {ts : List Token} (h : Laid position cs ts)
    {source : List Char} (hsource : source.drop position = cs) :
    ∃ spans, spans.map Prod.fst = ts ∧ Layout source position spans := by
  induction h with
  | nil position =>
      refine ⟨[], rfl, by simp, by simp, .nil, ?_⟩
      intro place c hplace hc _
      have hlength := List.drop_eq_nil_iff.1 hsource
      rw [List.getElem?_eq_none (by omega)] at hc
      cases hc
  | @blank position c cs ts hblank hrest ih =>
      have hnext : source.drop (position + 1) = cs := by
        rw [← List.drop_drop, hsource, List.drop_one, List.tail_cons]
      obtain ⟨spans, hspans, hlayout⟩ := ih hnext
      refine ⟨spans, hspans, hlayout.spelled, hlayout.placed, hlayout.apart, ?_⟩
      intro place d hplace hd houtside
      -- no span begins before the rest of the text, so the blank itself is outside all of them
      rcases Nat.eq_or_lt_of_le hplace with rfl | hlater
      · have hhead : source[position]? = some c := by
          rw [← List.head?_drop, hsource, List.head?_cons]
        rw [hhead] at hd
        cases hd
        exact hblank
      · exact hlayout.blank place d hlater hd houtside
  | @token position l rest ts hl _ hrest ih =>
      have hnext : source.drop (position + l.spelling.length) = rest := by
        rw [← List.drop_drop, hsource, List.drop_left]
      obtain ⟨spans, hspans, hlayout⟩ := ih hnext
      refine ⟨(⟨l.resolved, position⟩, l.spelling) :: spans, by rw [List.map_cons, hspans],
        List.forall_mem_cons.2 ⟨l.spelledAs_resolved, hlayout.spelled⟩,
        List.forall_mem_cons.2 ⟨hsource ▸ List.prefix_append .., hlayout.placed⟩,
        .cons (fun span hspan => ?_) hlayout.apart, ?_⟩
      · have hmem : span.1 ∈ ts := hspans ▸ List.mem_map_of_mem hspan
        exact (hrest.position_mem _ hmem).1
      · intro place d hplace hd houtside
        obtain ⟨hfirst, hothers⟩ := List.forall_mem_cons.1 houtside
        have hbehind : position + l.spelling.length ≤ place := by
          dsimp only at hfirst
          omega
        exact hlayout.blank place d hbehind hd hothers

/-! ### Sources -/

theorem tokenize_eq_ok_iff {source : String} {ts : List Token} :
    tokenize source = .ok ts ↔ Laid 0 source.toList ts := by
  rw [← tokensFrom_eq_ok_iff, tokenize, tokens]
  cases tokensFrom 0 source.toList with
  | ok ts' => simp [Except.mapError]
  | error u => simp [Except.mapError]

/-- **Nothing of a source is lost, and its tokens are read again.** Either the tokens stand in the
source one behind the other with only blanks around them, and the same lexemes are read from their
texts with single spaces between them; or the reading stops at a character that is not blank, and
the source in front of it has tokens. -/
theorem tokenize_covers (source : String) :
    (∃ ts spans again, tokenize source = .ok ts ∧
      ts.Pairwise (fun t next => t.position < next.position) ∧ spans.map Prod.fst = ts ∧
      Layout source.toList 0 spans ∧
      tokenize (" ".intercalate (ts.map fun t => t.lexeme.text)) = .ok again ∧
      again.map Token.lexeme = ts.map Token.lexeme) ∨
    ∃ front c rest ts, source = String.ofList (front ++ c :: rest) ∧
      tokenize source = .error ⟨source, .unexpectedCharacter c, front.length⟩ ∧
      Text.isBlank c = false ∧ tokenize (String.ofList front) = .ok ts := by
  rcases laid_or_unreadable 0 source.toList with ⟨ts, hts⟩ | ⟨front, c, rest, ts, hsource, herror,
    hc, hfront⟩
  · obtain ⟨spans, hspans, hlayout⟩ := hts.layout rfl
    obtain ⟨again, hagain, hlexemes⟩ := laid_spaced hts.readable 0
    rw [spaced, List.map_map] at hagain
    exact .inl ⟨ts, spans, again, tokenize_eq_ok_iff.2 hts, hts.increasing, hspans, hlayout,
      tokenize_eq_ok_iff.2 hagain, hlexemes⟩
  · refine .inr ⟨front, c, rest, ts, ?_, ?_, hc, ?_⟩
    · rw [← hsource, String.ofList_toList]
    · rw [tokenize, tokens, herror, Nat.zero_add]
      rfl
    · rw [tokenize_eq_ok_iff, String.toList_ofList]
      exact hfront

end Phrasebook.Condition
