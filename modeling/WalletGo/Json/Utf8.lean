import Mathlib.Data.List.Basic
import Mathlib.Tactic.Common

/-!
UTF-8 text and hexadecimal digits.

`decodeUtf8` reads any byte string: a byte that starts no valid sequence is read
as U+FFFD and skipped alone. It inverts `encodeUtf8`, so that encoding loses
nothing (`encodeUtf8_injective`).
-/

namespace Json

/-- What an invalid byte is read as. -/
def replacementChar : Char := Char.ofNat 0xFFFD

/-- The characters of a byte string of which the first `skip` bytes are consumed. -/
def decodeUtf8From : (skip : Nat) → List UInt8 → List Char
  | _, [] => []
  | skip + 1, _ :: rest => decodeUtf8From skip rest
  | 0, b :: rest =>
    -- no sequence is longer than four bytes
    match ((b :: rest).take 4).toByteArray.utf8DecodeChar? 0 with
    | some c => c :: decodeUtf8From (c.utf8Size - 1) rest
    | none => replacementChar :: decodeUtf8From 0 rest

def decodeUtf8 (bytes : List UInt8) : List Char := decodeUtf8From 0 bytes

def encodeUtf8 (text : List Char) : List UInt8 := text.flatMap String.utf8EncodeChar

theorem decodeUtf8From_append (consumed rest : List UInt8) :
    decodeUtf8From consumed.length (consumed ++ rest) = decodeUtf8From 0 rest := by
  induction consumed with
  | nil => rfl
  | cons b consumed ih => exact ih

/-- One encoded character is read back, whatever follows. -/
theorem decodeUtf8_encodeChar (c : Char) (rest : List UInt8) :
    decodeUtf8 (String.utf8EncodeChar c ++ rest) = c :: decodeUtf8 rest := by
  have length := String.length_utf8EncodeChar c
  have short : (String.utf8EncodeChar c).length ≤ 4 := by
    rw [length]
    exact c.utf8Size_le_four
  have first :
      ((String.utf8EncodeChar c ++ rest).take 4).toByteArray.utf8DecodeChar? 0 = some c := by
    rw [List.take_append, List.take_of_length_le short, List.toByteArray_append]
    exact ByteArray.utf8DecodeChar?_utf8EncodeChar_append
  cases encoded : String.utf8EncodeChar c with
  | nil =>
    have positive := c.utf8Size_pos
    rw [encoded, List.length_nil] at length
    omega
  | cons b tail =>
    rw [encoded, List.cons_append] at first
    rw [encoded, List.length_cons] at length
    rw [decodeUtf8, List.cons_append, decodeUtf8From, first]
    have size : c.utf8Size - 1 = tail.length := by omega
    simp only [size, decodeUtf8From_append]
    rfl

/-- A text is read back from its bytes. -/
theorem decodeUtf8_encodeUtf8 (text : List Char) : decodeUtf8 (encodeUtf8 text) = text := by
  induction text with
  | nil => rfl
  | cons c rest ih =>
    rw [encodeUtf8, List.flatMap_cons, decodeUtf8_encodeChar]
    exact congrArg (c :: ·) ih

theorem encodeUtf8_injective : Function.Injective encodeUtf8 :=
  Function.LeftInverse.injective decodeUtf8_encodeUtf8

/-- Of ASCII characters each is one byte. -/
theorem encodeUtf8_ascii {text : List Char} (ascii : ∀ c ∈ text, c.toNat < 128) :
    encodeUtf8 text = text.map fun c => UInt8.ofNat c.toNat := by
  induction text with
  | nil => rfl
  | cons c rest ih =>
    have small : c.val.toNat ≤ 0x7f := Nat.le_of_lt_succ (ascii c List.mem_cons_self)
    have first : String.utf8EncodeChar c = [UInt8.ofNat c.toNat] := by
      simp only [String.utf8EncodeChar, small, if_true]
      rfl
    have others := ih fun c mem => ascii c (List.mem_cons_of_mem _ mem)
    rw [encodeUtf8] at others ⊢
    rw [List.flatMap_cons, first, others]
    rfl

/-! ### Hexadecimal digits -/

def hexDigit (n : Nat) : Char :=
  Char.ofNat (if n < 10 then 0x30 + n else 0x57 + n)

def hexValue (c : Char) : Option Nat :=
  if '0' ≤ c ∧ c ≤ '9' then some (c.toNat - 0x30)
  else if 'a' ≤ c ∧ c ≤ 'f' then some (c.toNat - 0x57)
  else if 'A' ≤ c ∧ c ≤ 'F' then some (c.toNat - 0x37)
  else none

theorem hexValue_hexDigit : ∀ n < 16, hexValue (hexDigit n) = some n := by decide

theorem hexDigit_ascii : ∀ n < 16, (hexDigit n).toNat < 128 := by decide

def hexEncode (bytes : List UInt8) : List Char :=
  bytes.flatMap fun b => [hexDigit (b.toNat / 16), hexDigit (b.toNat % 16)]

theorem hexDigit_injOn {m n : Nat} (hm : m < 16) (hn : n < 16) (same : hexDigit m = hexDigit n) :
    m = n := by
  have values := congrArg hexValue same
  rw [hexValue_hexDigit m hm, hexValue_hexDigit n hn] at values
  exact Option.some.inj values

@[simp] theorem length_hexEncode (bytes : List UInt8) :
    (hexEncode bytes).length = 2 * bytes.length := by
  simp [hexEncode, Nat.mul_comm]

theorem hexEncode_ascii {bytes : List UInt8} {c : Char} (mem : c ∈ hexEncode bytes) :
    c.toNat < 128 := by
  obtain ⟨b, -, digit⟩ := List.mem_flatMap.mp mem
  have byte := b.toNat_lt
  rcases List.mem_cons.mp digit with rfl | digit
  · exact hexDigit_ascii _ (by omega)
  · cases List.mem_singleton.mp digit
    exact hexDigit_ascii _ (by omega)

theorem hexEncode_injective : Function.Injective hexEncode := by
  intro bytes
  induction bytes with
  | nil =>
    intro other same
    cases other with
    | nil => rfl
    | cons b other => cases same
  | cons b bytes ih =>
    intro other same
    cases other with
    | nil => cases same
    | cons d other =>
      simp only [hexEncode, List.flatMap_cons, List.cons_append, List.nil_append,
        List.cons.injEq] at same
      obtain ⟨high, low, rest⟩ := same
      have high' :=
        hexDigit_injOn (by have := b.toNat_lt; omega) (by have := d.toNat_lt; omega) high
      have low' := hexDigit_injOn (Nat.mod_lt _ (by decide)) (Nat.mod_lt _ (by decide)) low
      have byte : b = d := UInt8.toNat_inj.mp (by omega)
      rw [byte, ih rest]

end Json
