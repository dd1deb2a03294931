import Mathlib.Tactic.IntervalCases
import Mathlib.Tactic.Common

/-! Base64 in the URL-safe alphabet, written without padding, and the lenient reader
`base64.urlsafe_b64decode`: characters outside both alphabets are skipped, and
padding ends the text once it completes a group. -/

namespace Dagmar.Base64

section Codec

def alphabet (value : Nat) : Char :=
  if value < 26 then Char.ofNat (65 + value)
  else if value < 52 then Char.ofNat (71 + value)
  else if value < 62 then Char.ofNat (value - 4)
  else if value = 62 then '-' else '_'

def sextet? (c : Char) : Option Nat :=
  if 'A' ≤ c ∧ c ≤ 'Z' then some (c.toNat - 65)
  else if 'a' ≤ c ∧ c ≤ 'z' then some (c.toNat - 71)
  else if '0' ≤ c ∧ c ≤ '9' then some (c.toNat + 4)
  else if c = '-' ∨ c = '+' then some 62
  else if c = '_' ∨ c = '/' then some 63
  else none

/-- `urlsafe_b64encode` with its padding stripped. -/
def b64url : List UInt8 → List Char
  | [] => []
  | [a] => [alphabet (a.toNat / 4), alphabet (a.toNat % 4 * 16)]
  | [a, b] => [alphabet (a.toNat / 4), alphabet (a.toNat % 4 * 16 + b.toNat / 16), alphabet (b.toNat % 16 * 4)]
  | a :: b :: c :: rest =>
    alphabet (a.toNat / 4) :: alphabet (a.toNat % 4 * 16 + b.toNat / 16) ::
      alphabet (b.toNat % 16 * 4 + c.toNat / 64) :: alphabet (c.toNat % 64) :: b64url rest

/-- `binascii.a2b_base64` inside a group of four: how many of them it has read, the bits left over
from the last one, and the padding since. -/
def a2bBase64 : Nat → Nat → Nat → List Char → Option (List UInt8)
  | quad, _, _, [] => if quad = 0 then some [] else none
  | quad, left, pads, c :: rest =>
    if c = '=' then
      if 2 ≤ quad ∧ 4 ≤ quad + (pads + 1) then some []
      else a2bBase64 quad left (if 2 ≤ quad then pads + 1 else pads) rest
    else
      match sextet? c, quad with
      | none, _ => a2bBase64 quad left pads rest
      | some value, 0 => a2bBase64 1 value 0 rest
      | some value, 1 => (a2bBase64 2 (value % 16) 0 rest).map (UInt8.ofNat (left * 4 + value / 16) :: ·)
      | some value, 2 => (a2bBase64 3 (value % 4) 0 rest).map (UInt8.ofNat (left * 16 + value / 4) :: ·)
      | some value, _ => (a2bBase64 0 0 0 rest).map (UInt8.ofNat (left * 64 + value) :: ·)

def isAscii (text : List Char) : Bool := text.all fun c => c.toNat < 128

/-- `none` is a `ValueError`. -/
def urlsafeB64decode (text : List Char) : Option (List UInt8) :=
  if isAscii text then a2bBase64 0 0 0 text else none

end Codec

section RoundTrip

theorem sextet?_alphabet {value : Nat} (small : value < 64) :
    sextet? (alphabet value) = some value ∧ alphabet value ≠ '=' ∧ (alphabet value).toNat < 128 ∧ alphabet value ≠ '.' := by
  interval_cases value <;> decide

theorem a2b_alphabet {quad left pads value : Nat} {rest : List Char} (small : value < 64) :
    a2bBase64 quad left pads (alphabet value :: rest) =
      match quad with
      | 0 => a2bBase64 1 value 0 rest
      | 1 => (a2bBase64 2 (value % 16) 0 rest).map (UInt8.ofNat (left * 4 + value / 16) :: ·)
      | 2 => (a2bBase64 3 (value % 4) 0 rest).map (UInt8.ofNat (left * 16 + value / 4) :: ·)
      | _ => (a2bBase64 0 0 0 rest).map (UInt8.ofNat (left * 64 + value) :: ·) := by
  obtain ⟨read, unpadded, -⟩ := sextet?_alphabet small
  rcases quad with _ | _ | _ | quad <;> simp only [a2bBase64, if_neg unpadded, read]

theorem ofNat_eq {byte : UInt8} {value : Nat} (same : value = byte.toNat) : UInt8.ofNat value = byte := by
  rw [same, UInt8.ofNat_toNat]

/-- What was written is read back when the padding ends the group that is open. -/
theorem a2b_b64url_append (bytes : List UInt8) (padding : List Char)
    (closes : ∀ left, a2bBase64 ((b64url bytes).length % 4) left 0 padding = some []) :
    a2bBase64 0 0 0 (b64url bytes ++ padding) = some bytes := by
  induction bytes using b64url.induct with
  | case1 => exact closes 0
  | case2 a =>
    have size := a.toNat_lt
    simp only [b64url, List.cons_append, List.nil_append]
    rw [a2b_alphabet (by omega), a2b_alphabet (by omega)]
    have first : UInt8.ofNat (a.toNat / 4 * 4 + a.toNat % 4 * 16 / 16) = a := ofNat_eq (by omega)
    have closed : a2bBase64 2 (a.toNat % 4 * 16 % 16) 0 padding = some [] := closes _
    rw [first]
    simp only [closed, Option.map_some]
  | case3 a b =>
    have sizeA := a.toNat_lt
    have sizeB := b.toNat_lt
    simp only [b64url, List.cons_append, List.nil_append]
    rw [a2b_alphabet (by omega), a2b_alphabet (by omega)]
    simp only
    rw [a2b_alphabet (by omega)]
    have first : UInt8.ofNat (a.toNat / 4 * 4 + (a.toNat % 4 * 16 + b.toNat / 16) / 16) = a := ofNat_eq (by omega)
    have second : UInt8.ofNat ((a.toNat % 4 * 16 + b.toNat / 16) % 16 * 16 + b.toNat % 16 * 4 / 4) = b := ofNat_eq (by omega)
    have closed : a2bBase64 3 (b.toNat % 16 * 4 % 4) 0 padding = some [] := closes _
    rw [first, second]
    simp only [closed, Option.map_some]
  | case4 a b c rest ih =>
    have sizeA := a.toNat_lt
    have sizeB := b.toNat_lt
    have sizeC := c.toNat_lt
    have later : ∀ left, a2bBase64 ((b64url rest).length % 4) left 0 padding = some [] := by
      intro left
      have same := closes left
      simp only [b64url, List.length_cons, Nat.add_assoc, Nat.reduceAdd, Nat.add_mod_right] at same
      exact same
    simp only [b64url, List.cons_append]
    rw [a2b_alphabet (by omega), a2b_alphabet (by omega)]
    simp only
    rw [a2b_alphabet (by omega)]
    simp only
    rw [a2b_alphabet (by omega), ih later]
    have first : UInt8.ofNat (a.toNat / 4 * 4 + (a.toNat % 4 * 16 + b.toNat / 16) / 16) = a := ofNat_eq (by omega)
    have second : UInt8.ofNat ((a.toNat % 4 * 16 + b.toNat / 16) % 16 * 16 + (b.toNat % 16 * 4 + c.toNat / 64) / 4) = b :=
      ofNat_eq (by omega)
    have third : UInt8.ofNat ((b.toNat % 16 * 4 + c.toNat / 64) % 4 * 64 + c.toNat % 64) = c := ofNat_eq (by omega)
    rw [first, second, third]
    rfl

/-- A group is never left after its first character. -/
theorem length_b64url (bytes : List UInt8) :
    (b64url bytes).length % 4 = 0 ∨ (b64url bytes).length % 4 = 2 ∨ (b64url bytes).length % 4 = 3 := by
  induction bytes using b64url.induct with
  | case1 => exact .inl rfl
  | case2 a => exact .inr (.inl rfl)
  | case3 a b => exact .inr (.inr rfl)
  | case4 a b c rest ih =>
    simp only [b64url, List.length_cons, Nat.add_assoc, Nat.reduceAdd, Nat.add_mod_right]
    exact ih

theorem a2b_b64url (bytes : List UInt8) : a2bBase64 0 0 0 (b64url bytes ++ ['=', '=']) = some bytes := by
  apply a2b_b64url_append
  intro left
  rcases length_b64url bytes with whole | two | three
  · rw [whole]
    rfl
  · rw [two]
    rfl
  · rw [three]
    rfl

/-- The padding that `decode_cursor` adds completes the last group. -/
theorem a2b_b64url_padded (bytes : List UInt8) :
    a2bBase64 0 0 0 (b64url bytes ++ List.replicate ((4 - (b64url bytes).length % 4) % 4) '=') = some bytes := by
  apply a2b_b64url_append
  intro left
  rcases length_b64url bytes with whole | two | three
  · rw [whole]
    rfl
  · rw [two]
    rfl
  · rw [three]
    rfl

/-- Only characters of the alphabet are written. -/
theorem exists_sextet {bytes : List UInt8} {c : Char} (member : c ∈ b64url bytes) : ∃ value < 64, c = alphabet value := by
  have known {value : Nat} (small : value < 64) (same : c = alphabet value) : ∃ value < 64, c = alphabet value :=
    ⟨value, small, same⟩
  induction bytes using b64url.induct with
  | case1 => cases member
  | case2 a =>
    have size := a.toNat_lt
    simp only [b64url, List.mem_cons, List.not_mem_nil, or_false] at member
    rcases member with same | same <;> exact known (by omega) same
  | case3 a b =>
    have sizeA := a.toNat_lt
    have sizeB := b.toNat_lt
    simp only [b64url, List.mem_cons, List.not_mem_nil, or_false] at member
    rcases member with same | same | same <;> exact known (by omega) same
  | case4 a b c rest ih =>
    have sizeA := a.toNat_lt
    have sizeB := b.toNat_lt
    have sizeC := c.toNat_lt
    simp only [b64url, List.mem_cons] at member
    rcases member with same | same | same | same | inside
    · exact known (by omega) same
    · exact known (by omega) same
    · exact known (by omega) same
    · exact known (by omega) same
    · exact ih inside

theorem mem_b64url {bytes : List UInt8} {c : Char} (member : c ∈ b64url bytes) : c.toNat < 128 ∧ c ≠ '.' := by
  obtain ⟨value, small, rfl⟩ := exists_sextet member
  exact (sextet?_alphabet small).2.2

theorem isAscii_b64url (bytes : List UInt8) (count : Nat) : isAscii (b64url bytes ++ List.replicate count '=') := by
  rw [isAscii, List.all_append, Bool.and_eq_true]
  refine ⟨List.all_eq_true.mpr fun c member => decide_eq_true (mem_b64url member).1, List.all_eq_true.mpr ?_⟩
  intro c member
  rw [List.eq_of_mem_replicate member]
  rfl

theorem urlsafeB64decode_b64url (bytes : List UInt8) : urlsafeB64decode (b64url bytes ++ ['=', '=']) = some bytes := by
  have ascii : isAscii (b64url bytes ++ ['=', '=']) := isAscii_b64url bytes 2
  rw [urlsafeB64decode, if_pos ascii, a2b_b64url]

theorem urlsafeB64decode_padded (bytes : List UInt8) :
    urlsafeB64decode (b64url bytes ++ List.replicate ((4 - (b64url bytes).length % 4) % 4) '=') = some bytes := by
  rw [urlsafeB64decode, if_pos (isAscii_b64url bytes _), a2b_b64url_padded]

end RoundTrip

end Dagmar.Base64
