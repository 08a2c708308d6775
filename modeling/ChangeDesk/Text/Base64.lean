/-!
# Base 64

Three bytes as four characters of an alphabet of sixty-four; one or two bytes left over are filled
up with equals signs.
-/

namespace ChangeDesk.Text

/-- The character of a digit below sixty-four. -/
def base64Char (n : Nat) : Char :=
  if n < 26 then Char.ofNat ('A'.toNat + n)
  else if n < 52 then Char.ofNat ('a'.toNat + (n - 26))
  else if n < 62 then Char.ofNat ('0'.toNat + (n - 52))
  else if n = 62 then '+' else '/'

/-- The bytes in base 64. -/
def base64 : List UInt8 → List Char
  | [] => []
  | [a] => [base64Char (a.toNat / 4), base64Char (a.toNat % 4 * 16), '=', '=']
  | [a, b] =>
    [base64Char (a.toNat / 4), base64Char (a.toNat % 4 * 16 + b.toNat / 16),
      base64Char (b.toNat % 16 * 4), '=']
  | a :: b :: c :: rest =>
    [base64Char (a.toNat / 4), base64Char (a.toNat % 4 * 16 + b.toNat / 16),
      base64Char (b.toNat % 16 * 4 + c.toNat / 64), base64Char (c.toNat % 64)] ++ base64 rest

theorem length_base64 (bs : List UInt8) : (base64 bs).length = (bs.length + 2) / 3 * 4 := by
  fun_induction base64 bs with
  | case1 => rfl
  | case2 => simp
  | case3 => simp
  | case4 a b c rest ih =>
    simp only [List.length_append, List.length_cons, List.length_nil, ih]
    omega

example : String.ofList (base64 "user:päss".toUTF8.toList) = "dXNlcjpww6Rzcw==" := by
  decide +kernel

end ChangeDesk.Text
