import PerfGate.Workspace.Octets
import Mathlib.Tactic

/-!
# Texts as octets

A text that has been encoded is decoded to itself. Each character begins with a byte that tells
how many follow, and the bytes that follow are within the bounds that the first one sets.
-/

set_option autoImplicit false

namespace PerfGate.Octets

theorem code_bounds (c : Char) :
    c.toNat < 0x110000 ∧ ¬ (0xD800 ≤ c.toNat ∧ c.toNat < 0xE000) := by
  have hvalid : c.toNat < 0xD800 ∨ 0xDFFF < c.toNat ∧ c.toNat < 0x110000 := c.valid
  omega

theorem follow_one {bits least greatest byte : Nat} {rest : List Nat}
    (h : least ≤ byte ∧ byte ≤ greatest) :
    follow 1 bits least greatest (byte :: rest) = (some (bits * 64 + (byte - 0x80)), rest) := by
  rw [follow, if_pos h, follow]

theorem follow_two {bits least greatest byte next : Nat} {rest : List Nat}
    (h : least ≤ byte ∧ byte ≤ greatest) (hnext : 0x80 ≤ next ∧ next ≤ 0xBF) :
    follow 2 bits least greatest (byte :: next :: rest) =
      (some ((bits * 64 + (byte - 0x80)) * 64 + (next - 0x80)), rest) := by
  rw [follow, if_pos h, follow_one hnext]

theorem follow_three {bits least greatest byte next last : Nat} {rest : List Nat}
    (h : least ≤ byte ∧ byte ≤ greatest) (hnext : 0x80 ≤ next ∧ next ≤ 0xBF)
    (hlast : 0x80 ≤ last ∧ last ≤ 0xBF) :
    follow 3 bits least greatest (byte :: next :: last :: rest) =
      (some (((bits * 64 + (byte - 0x80)) * 64 + (next - 0x80)) * 64 + (last - 0x80)), rest) := by
  rw [follow, if_pos h, follow_two hnext hlast]

/-! ## First bytes -/

section
variable {n : Nat}

theorem lead_of_two (hlow : 0x80 ≤ n) (hhigh : n < 0x800) :
    lead? (0xC0 + n / 64) = some ⟨n / 64, 1, 0x80, 0xBF⟩ := by
  rw [lead?, if_neg (by omega), if_neg (by omega), if_pos (by omega), Nat.add_sub_cancel_left]

/-- The byte after the first one is bounded so that no character is spelled longer than it need be
and no half of a pair is spelled. -/
theorem lead_of_three (hlow : 0x800 ≤ n) (hhigh : n < 0x10000)
    (hpair : ¬ (0xD800 ≤ n ∧ n < 0xE000)) : ∃ least greatest,
    lead? (0xE0 + n / 4096) = some ⟨n / 4096, 2, least, greatest⟩ ∧
      least ≤ 0x80 + n / 64 % 64 ∧ 0x80 + n / 64 % 64 ≤ greatest := by
  rw [lead?, if_neg (by omega), if_neg (by omega), if_neg (by omega)]
  by_cases hfirst : n / 4096 = 0
  · rw [hfirst, if_pos rfl]
    exact ⟨_, _, rfl, by omega, by omega⟩
  rw [if_neg (by omega)]
  by_cases hbefore : n / 4096 = 13
  · rw [hbefore, if_pos rfl]
    exact ⟨_, _, rfl, by omega, by omega⟩
  · rw [if_neg (by omega), if_pos (by omega), Nat.add_sub_cancel_left]
    exact ⟨_, _, rfl, by omega, by omega⟩

theorem lead_of_four (hlow : 0x10000 ≤ n) (hhigh : n < 0x110000) : ∃ least greatest,
    lead? (0xF0 + n / 262144) = some ⟨n / 262144, 3, least, greatest⟩ ∧
      least ≤ 0x80 + n / 4096 % 64 ∧ 0x80 + n / 4096 % 64 ≤ greatest := by
  rw [lead?, if_neg (by omega), if_neg (by omega), if_neg (by omega), if_neg (by omega),
    if_neg (by omega), if_neg (by omega)]
  by_cases hfirst : n / 262144 = 0
  · rw [hfirst, if_pos rfl]
    exact ⟨_, _, rfl, by omega, by omega⟩
  rw [if_neg (by omega)]
  by_cases hlast : n / 262144 = 4
  · rw [hlast, if_neg (by omega), if_pos rfl]
    exact ⟨_, _, rfl, by omega, by omega⟩
  · rw [if_pos (by omega), Nat.add_sub_cancel_left]
    exact ⟨_, _, rfl, by omega, by omega⟩

end

/-- The first byte of a character and the bytes that follow it make the character. -/
theorem lead_encodeChar (c : Char) : ∃ byte following lead, encodeChar c = byte :: following ∧
    lead? byte = some lead ∧ ∀ rest,
      follow lead.follow lead.bits lead.least lead.greatest (following ++ rest) =
        (some c.toNat, rest) := by
  obtain ⟨hlimit, hpair⟩ := code_bounds c
  unfold encodeChar
  generalize c.toNat = n at *
  dsimp only
  split
  next hone => exact ⟨_, _, _, rfl, if_pos hone, fun _ => rfl⟩
  split
  next hone htwo =>
    have hvalue : n / 64 * 64 + (0x80 + n % 64 - 0x80) = n := by omega
    refine ⟨_, _, _, rfl, lead_of_two (by omega) htwo, fun rest => ?_⟩
    rw [List.singleton_append, follow_one ⟨by dsimp only; omega, by dsimp only; omega⟩, hvalue]
  split
  next htwo hthree =>
    obtain ⟨least, greatest, hlead, hbounds⟩ := lead_of_three (by omega) hthree hpair
    have hvalue : (n / 4096 * 64 + (0x80 + n / 64 % 64 - 0x80)) * 64 + (0x80 + n % 64 - 0x80) =
        n := by omega
    refine ⟨_, _, _, rfl, hlead, fun rest => ?_⟩
    rw [List.cons_append, List.singleton_append, follow_two hbounds (by omega), hvalue]
  next hthree =>
    obtain ⟨least, greatest, hlead, hbounds⟩ := lead_of_four (by omega) hlimit
    have hvalue : ((n / 262144 * 64 + (0x80 + n / 4096 % 64 - 0x80)) * 64 +
        (0x80 + n / 64 % 64 - 0x80)) * 64 + (0x80 + n % 64 - 0x80) = n := by omega
    refine ⟨_, _, _, rfl, hlead, fun rest => ?_⟩
    rw [List.cons_append, List.cons_append, List.singleton_append,
      follow_three hbounds (by omega) (by omega), hvalue]

/-! ## Whole texts -/

theorem characters_encoded (cs : List Char) {fuel : Nat} (h : cs.length < fuel) :
    characters fuel (cs.flatMap encodeChar) = cs.map some := by
  induction cs generalizing fuel with
  | nil =>
    obtain ⟨fuel, rfl⟩ := Nat.exists_eq_succ_of_ne_zero (Nat.ne_zero_of_lt h)
    rfl
  | cons c cs ih =>
    obtain ⟨fuel, rfl⟩ := Nat.exists_eq_succ_of_ne_zero (Nat.ne_zero_of_lt h)
    obtain ⟨byte, following, lead, hbytes, hlead, hfollow⟩ := lead_encodeChar c
    have hrest := ih (Nat.lt_of_succ_lt_succ h)
    rw [List.flatMap_cons, hbytes, List.cons_append, characters, hlead]
    simp only [hfollow, Option.map_some, Char.ofNat_toNat, hrest, List.map_cons]

theorem encodeChar_lt (c : Char) : ∀ byte ∈ encodeChar c, byte < 0xD800 := by
  obtain ⟨hlimit, -⟩ := code_bounds c
  unfold encodeChar
  generalize c.toNat = n at *
  dsimp only
  intro byte hbyte
  split_ifs at hbyte <;> simp only [List.mem_cons, List.not_mem_nil, or_false] at hbyte <;> omega

theorem toNat_ofNat {n : Nat} (h : n < 0xD800) : (Char.ofNat n).toNat = n := by
  rw [Char.ofNat, dif_pos (Or.inl h)]
  rfl

theorem bytes_ofBytes {bytes : List Nat} (h : ∀ byte ∈ bytes, byte < 0xD800) :
    Octets.bytes (ofBytes bytes) = bytes := by
  rw [Octets.bytes, ofBytes, String.toList_ofList, List.map_map]
  exact (List.map_congr_left fun byte hbyte => toNat_ofNat (h byte hbyte)).trans (List.map_id _)

theorem length_le_encoded (cs : List Char) : cs.length ≤ (cs.flatMap encodeChar).length := by
  induction cs with
  | nil => exact Nat.le_refl 0
  | cons c cs ih =>
    obtain ⟨byte, following, lead, hbytes, -⟩ := lead_encodeChar c
    rw [List.flatMap_cons, hbytes]
    simp only [List.length_cons, List.length_append]
    omega

theorem decoded_encode (text : String) : (encode text).decoded = text.toList.map some := by
  have hbytes : (encode text).bytes = text.toList.flatMap encodeChar := by
    refine bytes_ofBytes fun byte hbyte => ?_
    obtain ⟨c, -, hc⟩ := List.mem_flatMap.mp hbyte
    exact encodeChar_lt c byte hc
  have hlength : (encode text).length = (text.toList.flatMap encodeChar).length := by
    rw [encode, ofBytes, String.length_ofList, List.length_map]
  rw [decoded, hbytes, hlength]
  exact characters_encoded _ (Nat.lt_succ_of_le (length_le_encoded _))

/-- A text is decoded to itself, both strictly and leniently. -/
theorem decode_encode (text : String) :
    decode? (encode text) = some text ∧ decode (encode text) = text := by
  have hall (cs : List Char) : (cs.map some).mapM (m := Option) id = some cs := by
    induction cs with
    | nil => rfl
    | cons c cs ih => rw [List.map_cons, List.mapM_cons, ih]; rfl
  constructor
  · rw [decode?, decoded_encode, hall, Option.map_some, String.ofList_toList]
  · rw [decode, decoded_encode, List.map_map]
    simp [Function.comp_def]

end PerfGate.Octets
