/-! Bytes as text of 64 characters that are safe in URLs, without padding. -/
namespace Tabulation.Digest

/-- The character of six bits. -/
def sextet (n : Nat) : Char :=
  let n := n % 64
  if n < 26 then Char.ofNat ('A'.toNat + n)
  else if n < 52 then Char.ofNat ('a'.toNat + (n - 26))
  else if n < 62 then Char.ofNat ('0'.toNat + (n - 52))
  else if n = 62 then '-'
  else '_'

/-- Three bytes are four characters; fewer bytes at the end are one character more than bytes. -/
def base64Url : List UInt8 → List Char
  | a :: b :: c :: rest =>
    let n := a.toNat * 65536 + b.toNat * 256 + c.toNat
    sextet (n / 262144) :: sextet (n / 4096) :: sextet (n / 64) :: sextet n :: base64Url rest
  | [a, b] =>
    let n := a.toNat * 65536 + b.toNat * 256
    [sextet (n / 262144), sextet (n / 4096), sextet (n / 64)]
  | [a] =>
    let n := a.toNat * 65536
    [sextet (n / 262144), sextet (n / 4096)]
  | [] => []

end Tabulation.Digest
