/-
# Theory.Base64 -- base64 with padding

`encode` writes three bytes as four characters and pads the last group.  `decode`
reads text of digits with at most two pad characters after them: it wants a short
last group padded, but it takes one pad too many, and it does not look at the bits
a padded group leaves over.  So several texts may decode to one string of bytes, and
the canonical one is the one `encode` writes.
-/
import Mathlib.Data.List.Basic
import Mathlib.Tactic.IntervalCases

namespace BandSdk.Theory.Base64

def alphabet : List Char := "ABCDEFGHIJKLMNOPQRSTUVWXYZabcdefghijklmnopqrstuvwxyz0123456789+/".toList

/-- The character of a digit below 64. -/
def symbol (n : Nat) : Char := alphabet.getD n 'A'

def digit (c : Char) : Option Nat := alphabet.idxOf? c

theorem digit_symbol : ∀ n < 64, digit (symbol n) = some n := by decide +kernel

theorem symbol_ne_pad : ∀ n < 64, symbol n ≠ '=' := by decide +kernel

def encode : List UInt8 → List Char
  | [] => []
  | [a] =>
    let n := a.toNat
    [symbol (n / 4), symbol (n % 4 * 16), '=', '=']
  | [a, b] =>
    let n := a.toNat * 256 + b.toNat
    [symbol (n / 1024), symbol (n / 16 % 64), symbol (n % 16 * 4), '=']
  | a :: b :: c :: rest =>
    let n := a.toNat * 65536 + b.toNat * 256 + c.toNat
    symbol (n / 262144) :: symbol (n / 4096 % 64) :: symbol (n / 64 % 64) :: symbol (n % 64) :: encode rest

def decode : List Char → Option (List UInt8)
  | [] => some []
  | w :: x :: y :: z :: rest => do
      let p ← digit w
      let q ← digit x
      if y = '=' ∧ z = '=' ∧ rest = [] then return [UInt8.ofNat ((p * 64 + q) / 16)]
      let r ← digit y
      if z = '=' ∧ (rest = [] ∨ rest = ['=']) then
        let n := (p * 4096 + q * 64 + r) / 4
        return [UInt8.ofNat (n / 256), UInt8.ofNat (n % 256)]
      let t ← digit z
      let n := p * 262144 + q * 4096 + r * 64 + t
      let more ← decode rest
      return UInt8.ofNat (n / 65536) :: UInt8.ofNat (n / 256 % 256) :: UInt8.ofNat (n % 256) :: more
  -- no digit is left: a stray pad or two, or a group of the wrong length
  | short => if short = ['='] ∨ short = ['=', '='] then some [] else none

/-- What was written is read back. -/
theorem decode_encode (bytes : List UInt8) : decode (encode bytes) = some bytes := by
  fun_induction encode bytes with
  | case1 => rfl
  | case2 a n =>
    have small : n < 256 := a.toNat_lt
    have first := digit_symbol (n / 4) (by omega)
    have second := digit_symbol (n % 4 * 16) (by omega)
    have value : (n / 4 * 64 + n % 4 * 16) / 16 = n := by omega
    simp [decode, first, second, value, n]
  | case3 a b n =>
    have left : a.toNat < 256 := a.toNat_lt
    have right : b.toNat < 256 := b.toNat_lt
    have first := digit_symbol (n / 1024) (by omega)
    have second := digit_symbol (n / 16 % 64) (by omega)
    have third := digit_symbol (n % 16 * 4) (by omega)
    have high : n / 256 = a.toNat := by omega
    have low : n % 256 = b.toNat := by omega
    have value : (n / 1024 * 4096 + n / 16 % 64 * 64 + n % 16 * 4) / 4 = n := by
      clear high low first second third
      omega
    have plain := symbol_ne_pad (n % 16 * 4) (by omega)
    simp [decode, first, second, third, value, high, low, plain]
  | case4 a b c rest n ih =>
    have left : a.toNat < 256 := a.toNat_lt
    have middle : b.toNat < 256 := b.toNat_lt
    have right : c.toNat < 256 := c.toNat_lt
    have first := digit_symbol (n / 262144) (by omega)
    have second := digit_symbol (n / 4096 % 64) (by omega)
    have third := digit_symbol (n / 64 % 64) (by omega)
    have fourth := digit_symbol (n % 64) (by omega)
    have plain := symbol_ne_pad (n % 64) (by omega)
    have high : n / 65536 = a.toNat := by omega
    have mid : n / 256 % 256 = b.toNat := by omega
    have low : n % 256 = c.toNat := by omega
    have value : n / 262144 * 262144 + n / 4096 % 64 * 4096 + n / 64 % 64 * 64 + n % 64 = n := by
      omega
    simp [decode, first, second, third, fourth, plain, value, high, mid, low, ih]

theorem encode_ne_nil {bytes : List UInt8} (some_ : bytes ≠ []) : encode bytes ≠ [] := by
  fun_cases encode bytes <;> simp_all

end BandSdk.Theory.Base64
