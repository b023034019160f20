import Phrasebook.Proofs.Condition.Layout
import Phrasebook.Proofs.Condition.Viable

/-! The position of a syntax error. It is where the tokens stop to be the beginning of a condition:
what the parser has got through can be completed, in the source itself (`valid_completed`), and no
condition goes on with the token that it refused. -/

namespace Phrasebook.Condition

/-- A condition and the tokens it is read from. -/
def Valid (source : String) (ts : List Token) : Prop :=
  tokenize source = .ok ts ∧ ∃ e, parse source = .ok e

theorem valid_iff {source : String} {ts : List Token} :
    Valid source ts ↔ Laid 0 source.toList ts ∧
      ∃ e, DerivesCondition (ts.map Token.lexeme) e ∧ ∀ l ∈ ts.map Token.lexeme, l.Short := by
  have htokens : ∀ ts, tokens source = .ok ts ↔ Laid 0 source.toList ts := fun _ =>
    tokensFrom_eq_ok_iff
  simp only [Valid, tokenize_eq_ok_iff, parse_eq_ok_iff_reads, Reads, htokens]
  constructor
  · rintro ⟨hts, e, ts', hts', hcondition⟩
    have hsame := hts.tokensFrom
    rw [hts'.tokensFrom] at hsame
    cases hsame
    exact ⟨hts, e, hcondition⟩
  · rintro ⟨hts, e, hcondition⟩
    exact ⟨hts, e, ts, hts, hcondition⟩

theorem Valid.viable {source : String} {ts : List Token} (h : Valid source ts)
    {ls : List Lexeme} (hls : ls <+: ts.map Token.lexeme) : Viable ls := by
  obtain ⟨-, e, hderives, hshort⟩ := valid_iff.1 h
  obtain ⟨rest, hrest⟩ := hls
  rw [← hrest] at hderives hshort
  exact ⟨rest, e, hderives, hshort⟩

/-! ### Completing a source -/

theorem State.readable_completion (s : State) : ∀ l ∈ s.completion, l.Readable := by
  intro l hl
  rcases List.mem_append.1 hl with hoperand | hparen
  · cases hlast : s.operand with
    | some last => simp [hlast] at hoperand
    | none =>
        rw [hlast, List.mem_singleton] at hoperand
        rw [hoperand]
        exact ⟨.name "null".toList, .name rfl (List.all_eq_true.1 rfl), rfl, rfl⟩
  · rw [List.eq_of_mem_replicate hparen]
    exact ⟨.closeParen, .closeParen, rfl, rfl⟩

/-- What the parser has got through is the beginning of a condition that the source up to there is
the beginning of. -/
theorem valid_completed {source : String} {front back : List Token} {s : State}
    (hts : tokenize source = .ok (front ++ back))
    (hs : State.start.readMany (front.map Token.lexeme) = .ok s) :
    ∃ completed more, Valid completed (front ++ more) := by
  obtain ⟨before, after, -, -, -, -, hgoes⟩ := (tokenize_eq_ok_iff.1 hts).cut
  obtain ⟨more, hmore, hlexemes⟩ := laid_spaced s.readable_completion (0 + before.length + 1)
  obtain ⟨e, hcondition⟩ := derives_completion hs
  refine ⟨String.ofList (before ++ ' ' :: (spaced s.completion).toList), more,
    valid_iff.2 ⟨?_, e, ?_⟩⟩
  · rw [String.toList_ofList]
    exact hgoes _ more (separated_space _) (.blank rfl hmore)
  · rw [List.map_append, hlexemes]
    exact hcondition

/-! ### Refusals -/

/-- A row of tokens is refused at a token that the parser cannot read on with, or at its end. -/
theorem refused_of_parseTokens {ts : List Token} {stop position : Nat} {r : Reason}
    (h : parseTokens ts stop = .error (.reason r, position)) :
    (∃ front t back s, ts = front ++ t :: back ∧
      State.start.readMany (front.map Token.lexeme) = .ok s ∧
        ¬ Viable ((front ++ [t]).map Token.lexeme) ∧ t.position = position) ∨
    ∃ s, State.start.readMany (ts.map Token.lexeme) = .ok s ∧
      (∀ e, s.finish ≠ .ok e) ∧ stop = position := by
  unfold parseTokens at h
  split at h
  · next hempty =>
      cases h
      rw [List.isEmpty_iff.1 hempty]
      refine .inr ⟨.start, rfl, fun e he => ?_, rfl⟩
      cases he
  · split at h
    · next refused hread =>
        cases h
        obtain ⟨front, t, back, s, rfl, hs, ht, hposition⟩ := readAll_eq_error_iff.1 hread
        refine .inl ⟨front, t, back, s, rfl, hs, fun hviable => ?_, hposition⟩
        obtain ⟨s', hs'⟩ := viable_iff_readMany.1 hviable
        rw [List.map_append, State.readMany_append _ hs] at hs'
        obtain ⟨next, hnext, -⟩ := State.exists_read_of_readMany hs'
        rw [ht] at hnext
        cases hnext
    · next s hread =>
        refine .inr ⟨s, State.readAll_eq_ok_iff.1 hread, fun e he => ?_, ?_⟩
        · rw [he] at h
          cases h
        · cases hfinish : s.finish with
          | ok e =>
              rw [hfinish] at h
              cases h
          | error reason =>
              rw [hfinish] at h
              cases h
              rfl

theorem parseTokens_of_malformed {source : String} {ts : List Token} {x : SyntaxError}
    (hts : tokenize source = .ok ts) (h : parse source = .error (.malformed x)) :
    ∃ r, parseTokens ts source.length = .error (.reason r, x.position) := by
  unfold parse at h
  simp only [hts] at h
  split at h
  · cases h
  · next r position hparse =>
      cases h
      exact ⟨r, hparse⟩
  · cases h

/-! ### The first offending token -/

/-- The tokens in front of a position. -/
def tokensBefore (ts : List Token) (position : Nat) : List Token :=
  ts.filter fun t => t.position < position

theorem position_lt_length {source : String} {ts : List Token} (h : tokenize source = .ok ts) :
    ∀ t ∈ ts, t.position < source.length := by
  intro t ht
  have hmem := ((tokenize_eq_ok_iff.1 h).position_mem t ht).2
  rwa [Nat.zero_add, String.length_toList] at hmem

/-- The tokens of a source stop to be the beginning of a condition at this position. -/
structure FirstOffence (source : String) (ts : List Token) (position : Nat) : Prop where
  place : position = source.length ∨ ∃ t ∈ ts, t.position = position
  before : ∃ completed more, Valid completed (tokensBefore ts position ++ more)
  token : ∀ t ∈ ts, t.position = position → ∀ valid vs, Valid valid vs →
    ¬ (tokensBefore ts position ++ [t]).map Token.lexeme <+: vs.map Token.lexeme
  ending : position = source.length → tokensBefore ts position = ts ∧
    ∀ valid vs, Valid valid vs → vs.map Token.lexeme ≠ ts.map Token.lexeme

theorem tokensBefore_of_increasing {front back : List Token} {t : Token}
    (h : (front ++ t :: back).Pairwise fun t next => t.position < next.position) :
    tokensBefore (front ++ t :: back) t.position = front := by
  obtain ⟨-, hback, hfront⟩ := List.pairwise_append.1 h
  have hin : front.filter (fun s => decide (s.position < t.position)) = front :=
    List.filter_eq_self.2 fun s hs => decide_eq_true (hfront s hs t List.mem_cons_self)
  have hout : (t :: back).filter (fun s => decide (s.position < t.position)) = [] := by
    rw [List.filter_eq_nil_iff, List.forall_mem_cons]
    refine ⟨by simp, fun s hs => ?_⟩
    have := (List.pairwise_cons.1 hback).1 s hs
    rw [decide_eq_true_eq]
    omega
  rw [tokensBefore, List.filter_append, hin, hout, List.append_nil]

theorem eq_of_position {front back : List Token} {t t' : Token}
    (h : (front ++ t :: back).Pairwise fun t next => t.position < next.position)
    (ht' : t' ∈ front ++ t :: back) (hsame : t'.position = t.position) : t' = t := by
  obtain ⟨-, hback, hfront⟩ := List.pairwise_append.1 h
  rw [List.mem_append, List.mem_cons] at ht'
  rcases ht' with hin | rfl | hin
  · exact absurd hsame (Nat.ne_of_lt (hfront t' hin t List.mem_cons_self))
  · rfl
  · exact absurd hsame (Nat.ne_of_gt ((List.pairwise_cons.1 hback).1 t' hin))

theorem firstOffence_at_token {source : String} {front back : List Token} {t : Token} {s : State}
    (hts : tokenize source = .ok (front ++ t :: back))
    (hs : State.start.readMany (front.map Token.lexeme) = .ok s)
    (hstop : ¬ Viable ((front ++ [t]).map Token.lexeme)) :
    FirstOffence source (front ++ t :: back) t.position := by
  have hlaid := tokenize_eq_ok_iff.1 hts
  have hbefore := tokensBefore_of_increasing hlaid.increasing
  refine ⟨.inr ⟨t, by simp, rfl⟩, ?_, ?_, fun hend => ?_⟩
  · rw [hbefore]
    exact valid_completed hts hs
  · intro t' ht' hposition valid vs hvalid hprefix
    rw [hbefore, eq_of_position hlaid.increasing ht' hposition] at hprefix
    exact hstop (hvalid.viable hprefix)
  · exact absurd hend (Nat.ne_of_lt (position_lt_length hts t (by simp)))

theorem firstOffence_at_end {source : String} {ts : List Token} {s : State}
    (hts : tokenize source = .ok ts)
    (hs : State.start.readMany (ts.map Token.lexeme) = .ok s) (hfinish : ∀ e, s.finish ≠ .ok e) :
    FirstOffence source ts source.length := by
  have hbefore : tokensBefore ts source.length = ts :=
    List.filter_eq_self.2 fun t ht => decide_eq_true (position_lt_length hts t ht)
  refine ⟨.inl rfl, ?_, fun t ht hposition => ?_, fun _ => ⟨hbefore, ?_⟩⟩
  · rw [hbefore]
    rw [← List.append_nil ts] at hts
    exact valid_completed hts hs
  · exact absurd hposition (Nat.ne_of_lt (position_lt_length hts t ht))
  · intro valid vs hvalid hsame
    obtain ⟨-, e, hcondition⟩ := valid_iff.1 hvalid
    rw [hsame] at hcondition
    obtain ⟨s', hs', hfinish'⟩ := readMany_start_iff.2 hcondition
    rw [hs] at hs'
    cases hs'
    exact hfinish e hfinish'

/-- **A syntax error points at the first offending token.** -/
theorem firstOffence_of_malformed {source : String} {ts : List Token} {x : SyntaxError}
    (hts : tokenize source = .ok ts) (h : parse source = .error (.malformed x)) :
    FirstOffence source ts x.position := by
  obtain ⟨r, hparse⟩ := parseTokens_of_malformed hts h
  rcases refused_of_parseTokens hparse with ⟨front, t, back, s, rfl, hs, hstop, hposition⟩ |
    ⟨s, hs, hfinish, hposition⟩
  · rw [← hposition]
    exact firstOffence_at_token hts hs hstop
  · rw [← hposition]
    exact firstOffence_at_end hts hs hfinish

/-- The second comparison of `({a} < 1 < 2)` is refused where its operator stands. -/
theorem firstOffence_of_malformed_chained :
    let ts : List Token := [⟨.openParen, 0⟩, ⟨.field ['a'], 1⟩, ⟨.operator (.compare .less), 5⟩,
      ⟨.number false ['1'] none, 7⟩, ⟨.operator (.compare .less), 9⟩,
      ⟨.number false ['2'] none, 11⟩, ⟨.closeParen, 12⟩]
    let source := "(\x7ba\x7d < 1 < 2)"
    tokenize source = .ok ts ∧
      parse source = .error (.malformed ⟨source, .chainedComparisons, 9⟩) ∧
      FirstOffence source ts 9 := by
  intro ts source
  have hts : tokenize source = .ok ts := by decide +kernel
  have hparse : parse source = .error (.malformed ⟨source, .chainedComparisons, 9⟩) := by
    rw [parse, hts]
    rfl
  exact ⟨hts, hparse, firstOffence_of_malformed hts hparse⟩

end Phrasebook.Condition
