import Phrasebook.Http.Path
import Phrasebook.Proofs.Text.Utf8

/-! Escapes in paths. Every byte of a text can be written as a percent escape, and is read back
(`unescaped_append`). Such a text has no characters that mean something in a path, so a path with an
escaped segment is read as the path with the segment itself. Paths are decoded twice: a segment that
is escaped twice is always read as it was meant (`decoded_segment`), one that is escaped once just
needs to be free of percent signs (`decoded_escaped`). -/

namespace Phrasebook.Http

/-- A byte as a percent escape. -/
def escapedByte (b : Nat) : List Char :=
  ['%', (b / 16).digitChar, (b % 16).digitChar]

/-- A text with all its bytes as percent escapes. -/
def escaped (cs : List Char) : List Char :=
  (cs.flatMap Text.characterBytes).flatMap escapedByte

/-! ### Reading escapes -/

theorem hexValue?_digitChar {n : Nat} (h : n < 16) : Json.hexValue? n.digitChar = some n := by
  have hall : ∀ n : Fin 16, Json.hexValue? (Nat.digitChar n) = some n.val := by decide
  exact hall ⟨n, h⟩

theorem decodedBytes_escapedByte {b : Nat} (h : b < 256) (rest : List Char) :
    decodedBytes (escapedByte b ++ rest) = b :: decodedBytes rest := by
  have hhigh : Json.hexValue? (b / 16).digitChar = some (b / 16) :=
    hexValue?_digitChar (by omega)
  have hlow : Json.hexValue? (b % 16).digitChar = some (b % 16) :=
    hexValue?_digitChar (Nat.mod_lt b (by decide))
  show decodedBytes ('%' :: (b / 16).digitChar :: (b % 16).digitChar :: rest) = _
  rw [decodedBytes, hhigh, hlow]
  dsimp only
  rw [Nat.div_add_mod]

theorem lt_of_mem_bytes {b : Nat} {cs : List Char} (h : b ∈ cs.flatMap Text.characterBytes) :
    b < 256 := by
  obtain ⟨c, -, hc⟩ := List.mem_flatMap.1 h
  obtain ⟨byte, -, rfl⟩ := List.mem_map.1 hc
  exact byte.toNat_lt

theorem decodedBytes_escaped (cs rest : List Char) :
    decodedBytes (escaped cs ++ rest) = cs.flatMap Text.characterBytes ++ decodedBytes rest := by
  have hbytes : ∀ b ∈ cs.flatMap Text.characterBytes, b < 256 := fun _ => lt_of_mem_bytes
  rw [escaped]
  -- the bytes of several characters are read like those of one, so the induction is on bytes
  generalize cs.flatMap Text.characterBytes = bytes at hbytes
  induction bytes with
  | nil => rfl
  | cons b bytes ih =>
      obtain ⟨hb, hrest⟩ := List.forall_mem_cons.1 hbytes
      rw [List.flatMap_cons, List.append_assoc, decodedBytes_escapedByte hb, ih hrest]
      rfl

theorem decodedBytes_append {cs : List Char} (h : '%' ∉ cs) (rest : List Char) :
    decodedBytes (cs ++ rest) = cs.flatMap Text.characterBytes ++ decodedBytes rest := by
  induction cs with
  | nil => rfl
  | cons c cs ih =>
      rw [List.mem_cons, not_or] at h
      obtain ⟨hc, hcs⟩ := h
      rw [List.cons_append, decodedBytes, ih hcs, Text.utf8Bytes_singleton, List.flatMap_cons,
        List.append_assoc]
      rintro high low more rfl
      exact absurd rfl hc

/-- **An escaped text is read back, and what has no escapes around it is read as it is.** -/
theorem unescaped_append {front back : List Char} (hfront : '%' ∉ front) (hback : '%' ∉ back)
    (cs : List Char) : unescaped (front ++ escaped cs ++ back) = front ++ cs ++ back := by
  have hbytes : decodedBytes (front ++ escaped cs ++ back) =
      (front ++ cs ++ back).flatMap Text.characterBytes := by
    have hend := decodedBytes_append hback []
    rw [List.append_nil, decodedBytes, List.append_nil] at hend
    rw [List.append_assoc, decodedBytes_append hfront, decodedBytes_escaped, hend,
      List.flatMap_append, List.flatMap_append, List.append_assoc]
  rw [unescaped, hbytes, Text.utf8Characters_flatMap]

theorem unescaped_of_not_mem {cs : List Char} (h : '%' ∉ cs) : unescaped cs = cs := by
  have happend := unescaped_append h List.not_mem_nil []
  rwa [List.append_nil, List.append_nil, escaped, List.flatMap_nil, List.flatMap_nil,
    List.append_nil] at happend

/-! ### Paths with escapes -/

/-- The characters that mean something in a path, slashes and escapes aside. -/
def marks : List Char :=
  ['.', '?', '#']

/-- Every character of an escaped text is a percent sign or a digit. -/
theorem mem_escaped {c : Char} {cs : List Char} (h : c ∈ escaped cs) :
    c = '%' ∨ ∃ n : Fin 16, c = Nat.digitChar n := by
  obtain ⟨b, hb, hc⟩ := List.mem_flatMap.1 h
  have hlt : b < 256 := lt_of_mem_bytes hb
  simp only [escapedByte, List.mem_cons, List.not_mem_nil, or_false] at hc
  rcases hc with rfl | rfl | rfl
  · exact .inl rfl
  · exact .inr ⟨⟨b / 16, by omega⟩, rfl⟩
  · exact .inr ⟨⟨b % 16, by omega⟩, rfl⟩

theorem not_mem_marks_of_mem_escaped {c : Char} {cs : List Char} (h : c ∈ escaped cs) :
    c ∉ marks := by
  have hdigits : ∀ n : Fin 16, Nat.digitChar n ∉ marks := by decide
  rcases mem_escaped h with rfl | ⟨n, rfl⟩
  · decide
  · exact hdigits n

theorem foldl_step {segments : List (List Char)}
    (h : ∀ segment ∈ segments, segment ≠ ['.'] ∧ segment ≠ ['.', '.'])
    (front : List (List Char)) : segments.foldl step front = front ++ segments := by
  induction segments generalizing front with
  | nil => rw [List.foldl_nil, List.append_nil]
  | cons segment segments ih =>
      obtain ⟨⟨hone, htwo⟩, hrest⟩ := List.forall_mem_cons.1 h
      rw [List.foldl_cons, step, if_neg hone, if_neg htwo, ih hrest, List.append_assoc]
      rfl

theorem withoutDots_of_not_mem {path : List Char} (h : '.' ∉ path) : withoutDots path = path := by
  have hpieces : ∀ segment ∈ Text.splitOn '/' path, '.' ∉ segment := fun _ hsegment hdot =>
    h (Text.mem_of_mem_splitOn hsegment hdot)
  have hsegments : ∀ segment ∈ Text.splitOn '/' path, segment ≠ ['.'] ∧ segment ≠ ['.', '.'] := by
    intro segment hsegment
    have hdot := hpieces segment hsegment
    constructor
    · rintro rfl
      exact hdot List.mem_cons_self
    · rintro rfl
      exact hdot List.mem_cons_self
  rw [withoutDots, foldl_step hsegments, List.nil_append, Text.intercalate_splitOn]

theorem pathPart_of_not_mem {c : Char} {cs : List Char} (hc : c ≠ '/')
    (hquery : '?' ∉ '/' :: c :: cs) (hfragment : '#' ∉ '/' :: c :: cs) :
    pathPart ('/' :: c :: cs) = '/' :: c :: cs := by
  have haddress : ('/' :: c :: cs).takeWhile (fun c => c ≠ '?' && c ≠ '#') = '/' :: c :: cs := by
    rw [List.takeWhile_eq_self_iff]
    intro d hd
    have hd₁ : d ≠ '?' := fun h => hquery (h ▸ hd)
    have hd₂ : d ≠ '#' := fun h => hfragment (h ▸ hd)
    simp [hd₁, hd₂]
  have hhost : behindHost ('/' :: c :: cs) = '/' :: c :: cs := by
    rw [behindHost]
    rintro rest ⟨⟩
    exact hc rfl
  rw [pathPart, haddress, hhost, List.dropWhile_cons_of_pos (by decide),
    List.dropWhile_cons_of_neg (by simpa using hc)]

/-- A path without marks is decoded as a whole. -/
theorem decoded_eq_unescaped {c : Char} {cs : List Char} (hc : c ≠ '/')
    (h : ∀ d ∈ '/' :: c :: cs, d ∉ marks) :
    decoded ('/' :: c :: cs) = unescaped (unescaped ('/' :: c :: cs)) := by
  have hmark : ∀ d ∈ marks, d ∉ '/' :: c :: cs := fun d hd hmem => h d hmem hd
  rw [decoded, pathPart_of_not_mem hc (hmark '?' (by decide)) (hmark '#' (by decide)),
    withoutDots_of_not_mem (hmark '.' (by decide))]

/-- A text that has neither escapes nor marks. -/
def IsPlain (cs : List Char) : Prop :=
  ∀ c ∈ cs, c ∉ '%' :: marks

instance (cs : List Char) : Decidable (IsPlain cs) :=
  List.decidableBAll (fun c => c ∉ '%' :: marks) cs

namespace IsPlain

variable {cs : List Char}

theorem not_mem_percent (h : IsPlain cs) : '%' ∉ cs :=
  fun hmem => h '%' hmem List.mem_cons_self

theorem not_mem_marks (h : IsPlain cs) {c : Char} (hc : c ∈ cs) : c ∉ marks :=
  fun hmark => h c hc (List.mem_cons_of_mem _ hmark)

end IsPlain

section

variable {c : Char} {front back : List Char} (hc : c ≠ '/') (hfront : IsPlain ('/' :: c :: front))
  (hback : IsPlain back)

include hc hfront hback

theorem decoded_append_escaped (cs : List Char) :
    decoded ('/' :: c :: front ++ escaped cs ++ back) =
      unescaped ('/' :: c :: front ++ cs ++ back) := by
  have hmarks : ∀ d ∈ '/' :: c :: front ++ escaped cs ++ back, d ∉ marks := by
    intro d hd
    rcases List.mem_append.1 hd with hd | hd
    · rcases List.mem_append.1 hd with hd | hd
      · exact hfront.not_mem_marks hd
      · exact not_mem_marks_of_mem_escaped hd
    · exact hback.not_mem_marks hd
  rw [← unescaped_append hfront.not_mem_percent hback.not_mem_percent cs]
  exact decoded_eq_unescaped hc hmarks

/-- **A segment that is escaped twice is read as it was meant.** -/
theorem decoded_escaped_escaped (cs : List Char) :
    decoded ('/' :: c :: front ++ escaped (escaped cs) ++ back) =
      '/' :: c :: front ++ cs ++ back := by
  rw [decoded_append_escaped hc hfront hback,
    unescaped_append hfront.not_mem_percent hback.not_mem_percent]

/-- A segment without percent signs is read as it was meant if it is escaped once. -/
theorem decoded_escaped {cs : List Char} (hcs : '%' ∉ cs) :
    decoded ('/' :: c :: front ++ escaped cs ++ back) = '/' :: c :: front ++ cs ++ back := by
  have hpath : '%' ∉ '/' :: c :: front ++ cs ++ back := by
    rw [List.mem_append, List.mem_append, not_or, not_or]
    exact ⟨⟨hfront.not_mem_percent, hcs⟩, hback.not_mem_percent⟩
  rw [decoded_append_escaped hc hfront hback, unescaped_of_not_mem hpath]

end

/-- A path that has neither escapes nor marks is read as it is. -/
theorem decoded_of_isPlain {c : Char} {cs : List Char} (hc : c ≠ '/')
    (h : IsPlain ('/' :: c :: cs)) : decoded ('/' :: c :: cs) = '/' :: c :: cs := by
  rw [decoded_eq_unescaped hc fun _ => h.not_mem_marks, unescaped_of_not_mem h.not_mem_percent,
    unescaped_of_not_mem h.not_mem_percent]

/-! ### The paths of a key -/

/-- A key with all its bytes as percent escapes. -/
def encoded (key : String) : String :=
  String.ofList (escaped key.toList)

/-- A segment that is read as a key, at the end of a path and in front of another segment. -/
structure Spells (spelling key : String) : Prop where
  entry : decoded ("/api/v1/entries/" ++ spelling).toList = ("/api/v1/entries/" ++ key).toList
  resolution : decoded ("/api/v1/entries/" ++ spelling ++ "/resolve").toList =
    ("/api/v1/entries/" ++ key ++ "/resolve").toList

section

variable {spelling key : String}

/-- A segment that is read as a key among any fixed ones spells it. -/
theorem Spells.of_decoded
    (h : ∀ front back : List Char, IsPlain ('/' :: 'a' :: front) → IsPlain back →
      decoded ('/' :: 'a' :: front ++ spelling.toList ++ back) =
        '/' :: 'a' :: front ++ key.toList ++ back) : Spells spelling key := by
  have hfront : IsPlain "/api/v1/entries/".toList := by decide
  constructor
  · have hentry := h "pi/v1/entries/".toList [] hfront nofun
    rw [List.append_nil, List.append_nil] at hentry
    rw [String.toList_append, String.toList_append]
    exact hentry
  · have hresolution := h "pi/v1/entries/".toList "/resolve".toList hfront (by decide)
    rw [String.toList_append, String.toList_append, String.toList_append, String.toList_append]
    exact hresolution

/-- **A key that is escaped twice is read as it was meant.** -/
theorem spells_encoded_encoded (key : String) : Spells (encoded (encoded key)) key :=
  .of_decoded fun front back hfront hback => by
    rw [encoded, encoded, String.toList_ofList, String.toList_ofList]
    exact decoded_escaped_escaped (by decide) hfront hback key.toList

/-- A key without percent signs is read as it was meant if it is escaped once. -/
theorem spells_encoded (hkey : '%' ∉ key.toList) : Spells (encoded key) key :=
  .of_decoded fun front back hfront hback => by
    rw [encoded, String.toList_ofList]
    exact decoded_escaped (by decide) hfront hback hkey

end

end Phrasebook.Http
