import Mathlib.Data.List.TakeWhile
import Phrasebook.Text.Encoding

/-! UTF-8 read back. The bytes of a text are the bytes of its characters in a row
(`utf8Bytes_eq_flatMap`), each character takes one to four of them (`characterBytes_cases`), and the
reader finds the characters again (`utf8Characters_flatMap`): behind the bytes of a character it
stands where the next one begins. -/

namespace Phrasebook.Text

/-! ### The bytes of a text -/

/-- The bytes of one character. -/
def characterBytes (c : Char) : List Nat :=
  (String.utf8EncodeChar c).map UInt8.toNat

theorem toList_loop (bytes : ByteArray) (i : Nat) (front : List UInt8) :
    ByteArray.toList.loop bytes i front = front.reverse ++ bytes.data.toList.drop i := by
  fun_induction ByteArray.toList.loop bytes i front with
  | case1 i front h ih =>
      have hi : i < bytes.data.toList.length := h
      rw [ih, List.drop_eq_getElem_cons hi, List.reverse_cons, List.append_assoc]
      simp [ByteArray.get!, h]
  | case2 i front h =>
      have hi : bytes.data.toList.length ≤ i := Nat.le_of_not_lt h
      rw [List.drop_eq_nil_of_le hi, List.append_nil]

theorem utf8Bytes_eq_flatMap (s : String) : utf8Bytes s = s.toList.flatMap characterBytes := by
  have hbytes : s.toUTF8.toList = s.toList.flatMap String.utf8EncodeChar := by
    rw [ByteArray.toList, toList_loop, String.toUTF8_eq_toByteArray, ← String.utf8Encode_toList,
      List.utf8Encode, List.data_toByteArray]
    rfl
  rw [utf8Bytes, hbytes, List.map_flatMap]
  rfl

theorem utf8Bytes_singleton (c : Char) : utf8Bytes (String.singleton c) = characterBytes c := by
  rw [utf8Bytes_eq_flatMap, String.toList_singleton, List.flatMap_singleton]

/-- How many bytes a character takes, and which ones. -/
theorem characterBytes_cases (c : Char) :
    (c.toNat < 0x80 ∧ characterBytes c = [c.toNat]) ∨
    ((0x80 ≤ c.toNat ∧ c.toNat < 0x800) ∧
      characterBytes c = [0xc0 + c.toNat / 64, 0x80 + c.toNat % 64]) ∨
    (((0x800 ≤ c.toNat ∧ c.toNat < 0x10000) ∧ (c.toNat < 0xd800 ∨ 0xdfff < c.toNat)) ∧
      characterBytes c =
        [0xe0 + c.toNat / 4096, 0x80 + c.toNat / 64 % 64, 0x80 + c.toNat % 64]) ∨
    ((0x10000 ≤ c.toNat ∧ c.toNat < 0x110000) ∧
      characterBytes c = [0xf0 + c.toNat / 262144, 0x80 + c.toNat / 4096 % 64,
        0x80 + c.toNat / 64 % 64, 0x80 + c.toNat % 64]) := by
  have hvalid : c.toNat < 0xd800 ∨ 0xdfff < c.toNat ∧ c.toNat < 0x110000 := c.valid
  have hval : c.val.toNat = c.toNat := rfl
  generalize hn : c.toNat = n at hvalid hval ⊢
  have hcontinued : ∀ m, (UInt8.ofNat (m % 64 + 128)).toNat = 0x80 + m % 64 := fun m => by
    rw [UInt8.toNat_ofNat']
    omega
  rw [characterBytes, String.utf8EncodeChar, hval]
  split_ifs with hone htwo hthree
  · have hlead : (UInt8.ofNat n).toNat = n := by
      rw [UInt8.toNat_ofNat']
      omega
    exact .inl ⟨by omega, by rw [List.map_singleton, hlead]⟩
  · have hlead : (UInt8.ofNat (n / 64 % 32 + 192)).toNat = 0xc0 + n / 64 := by
      rw [UInt8.toNat_ofNat']
      omega
    refine .inr (.inl ⟨by omega, ?_⟩)
    simp only [List.map_cons, List.map_nil, hlead, hcontinued]
  · have hlead : (UInt8.ofNat (n / 4096 % 16 + 224)).toNat = 0xe0 + n / 4096 := by
      rw [UInt8.toNat_ofNat']
      omega
    refine .inr (.inr (.inl ⟨by omega, ?_⟩))
    simp only [List.map_cons, List.map_nil, hlead, hcontinued]
  · have hlead : (UInt8.ofNat (n / 262144 % 8 + 240)).toNat = 0xf0 + n / 262144 := by
      rw [UInt8.toNat_ofNat']
      omega
    refine .inr (.inr (.inr ⟨by omega, ?_⟩))
    simp only [List.map_cons, List.map_nil, hlead, hcontinued]

/-! ### Reading them -/

/-- The code point that a leading byte spells with the bytes behind it. -/
def codeOf (lead : Nat) (tail : List Nat) : Nat :=
  tail.foldl (fun n b => 64 * n + b % 64)
    (if tail.length = 1 then lead % 32 else if tail.length = 2 then lead % 16 else lead % 8)

section

variable {lead low high second : Nat} {more : List Nat}

/-- Bytes that continue a character are taken as they are. -/
theorem continuing_append (rest : List Nat) (hsecond : low ≤ second ∧ second ≤ high)
    (hmore : ∀ b ∈ more, 0x80 ≤ b ∧ b ≤ 0xbf) :
    continuing (more.length + 1) low high (second :: more ++ rest) = second :: more := by
  have htaken : (more.takeWhile fun b => 0x80 ≤ b && b ≤ 0xbf) = more := by
    rw [List.takeWhile_eq_self_iff]
    intro b hb
    simpa using hmore b hb
  rw [List.cons_append, continuing, if_pos ⟨Nat.succ_pos _, hsecond⟩, Nat.add_sub_cancel,
    List.take_left, htaken]

theorem le_of_continuation? {r : Nat × Nat × Nat} (h : continuation? lead = some r) :
    0x80 ≤ lead := by
  unfold continuation? at h
  split_ifs at h <;> omega

/-- A leading byte with the bytes that it announces is one character. -/
theorem utf8Characters_lead (more rest : List Nat)
    (hcount : continuation? lead = some (more.length + 1, low, high))
    (hsecond : low ≤ second ∧ second ≤ high) (hmore : ∀ b ∈ more, 0x80 ≤ b ∧ b ≤ 0xbf) :
    utf8Characters (lead :: second :: more ++ rest) =
      Char.ofNat (codeOf lead (second :: more)) :: utf8Characters rest := by
  have hread : character lead (second :: more ++ rest) =
      (Char.ofNat (codeOf lead (second :: more)), (second :: more).length) := by
    rw [character, if_neg (Nat.not_lt.2 (le_of_continuation? hcount)), hcount]
    dsimp only
    rw [continuing_append rest hsecond hmore, if_pos List.length_cons]
    rfl
  rw [List.cons_append, utf8Characters, hread]
  dsimp only
  rw [List.drop_left]

end

/-- The second byte of a character of three bytes is one that the first byte announces. -/
theorem continuation?_three {n : Nat} (hn : 0x800 ≤ n ∧ n < 0x10000)
    (hvalid : n < 0xd800 ∨ 0xdfff < n) :
    ∃ low high, continuation? (0xe0 + n / 4096) = some (2, low, high) ∧
      low ≤ 0x80 + n / 64 % 64 ∧ 0x80 + n / 64 % 64 ≤ high := by
  unfold continuation?
  split_ifs <;> first | omega | exact ⟨_, _, rfl, by omega⟩

theorem continuation?_four {n : Nat} (hn : 0x10000 ≤ n ∧ n < 0x110000) :
    ∃ low high, continuation? (0xf0 + n / 262144) = some (3, low, high) ∧
      low ≤ 0x80 + n / 4096 % 64 ∧ 0x80 + n / 4096 % 64 ≤ high := by
  unfold continuation?
  split_ifs <;> first | omega | exact ⟨_, _, rfl, by omega⟩

/-- **A character is read from its bytes, whatever stands behind them.** -/
theorem utf8Characters_characterBytes (c : Char) (rest : List Nat) :
    utf8Characters (characterBytes c ++ rest) = c :: utf8Characters rest := by
  have hc : Char.ofNat c.toNat = c := Char.ofNat_toNat c
  have hcases := characterBytes_cases c
  -- from here on all is arithmetic of the code point
  generalize c.toNat = n at hc hcases
  have hcontinued : ∀ m, 0x80 ≤ 0x80 + m % 64 ∧ 0x80 + m % 64 ≤ 0xbf := fun m => by omega
  rcases hcases with ⟨hn, hbytes⟩ | ⟨hn, hbytes⟩ | ⟨⟨hn, hvalid⟩, hbytes⟩ | ⟨hn, hbytes⟩
  · rw [hbytes, List.singleton_append, utf8Characters, character, if_pos hn, hc]
    rfl
  · have hcount : continuation? (0xc0 + n / 64) = some (1, 0x80, 0xbf) :=
      if_pos (by omega)
    have hcode : codeOf (0xc0 + n / 64) [0x80 + n % 64] = n := by
      show 64 * ((0xc0 + n / 64) % 32) + (0x80 + n % 64) % 64 = n
      omega
    rw [hbytes, utf8Characters_lead [] rest hcount (hcontinued n) (List.forall_mem_nil _), hcode,
      hc]
  · obtain ⟨low, high, hcount, hsecond⟩ := continuation?_three hn hvalid
    have hcode : codeOf (0xe0 + n / 4096) [0x80 + n / 64 % 64, 0x80 + n % 64] = n := by
      show 64 * (64 * ((0xe0 + n / 4096) % 16) + (0x80 + n / 64 % 64) % 64) +
        (0x80 + n % 64) % 64 = n
      omega
    rw [hbytes, utf8Characters_lead [_] rest hcount hsecond (by simp [hcontinued]), hcode, hc]
  · obtain ⟨low, high, hcount, hsecond⟩ := continuation?_four hn
    have hcode : codeOf (0xf0 + n / 262144)
        [0x80 + n / 4096 % 64, 0x80 + n / 64 % 64, 0x80 + n % 64] = n := by
      show 64 * (64 * (64 * ((0xf0 + n / 262144) % 8) + (0x80 + n / 4096 % 64) % 64) +
        (0x80 + n / 64 % 64) % 64) + (0x80 + n % 64) % 64 = n
      omega
    rw [hbytes, utf8Characters_lead [_, _] rest hcount hsecond (by simp [hcontinued]), hcode, hc]

/-- **Characters are read from their bytes.** -/
theorem utf8Characters_flatMap (cs : List Char) :
    utf8Characters (cs.flatMap characterBytes) = cs := by
  induction cs with
  | nil => rw [List.flatMap_nil, utf8Characters]
  | cons c cs ih => rw [List.flatMap_cons, utf8Characters_characterBytes, ih]

end Phrasebook.Text
