/-!
# Base 64

Sixty-four characters stand for the values of six bits. `encodeBase64` writes three bytes as four of
them; of one or two bytes at the end it fills up the digits with equals signs.
-/

namespace EsModule.Text

/-- The digits of 64 values. -/
def base64Alphabet : List Char :=
  "ABCDEFGHIJKLMNOPQRSTUVWXYZabcdefghijklmnopqrstuvwxyz0123456789+/".toList

/-- The digit of a value below 64. -/
def base64Digit (value : Nat) : Char := base64Alphabet.getD value 'A'

/-- The four digits of a number of 24 bits. -/
def base64Group (n : Nat) : List Char :=
  [n / 64 / 64 / 64 % 64, n / 64 / 64 % 64, n / 64 % 64, n % 64].map base64Digit

/-- Some bytes in digits. -/
def encodeBase64 : List UInt8 → List Char
  | [] => []
  | [a] => (base64Group (a.toNat * 256 * 256)).take 2 ++ ['=', '=']
  | [a, b] => (base64Group ((a.toNat * 256 + b.toNat) * 256)).take 3 ++ ['=']
  | a :: b :: c :: rest =>
    base64Group ((a.toNat * 256 + b.toNat) * 256 + c.toNat) ++ encodeBase64 rest

end EsModule.Text
