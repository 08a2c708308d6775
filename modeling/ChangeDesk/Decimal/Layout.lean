import ChangeDesk.Decimal.Shortest

/-!
# Writing a decimal

How the chosen digits of a number are laid out: with a point among them, or as one digit before
the point and a power of ten. What is a matter of taste is one record.
-/

namespace ChangeDesk.Decimal

/-- The decisions of a layout: the first and the last power of ten of a leading digit for which
the number is written without an exponent. -/
structure Layout where
  first : Int
  last : Int

/-- The digits with a point in front of all but the first `n`, filled with zeros on both sides;
at least one digit stands on each side of the point. -/
def pointAfter (ds : List Char) (n : Int) : List Char :=
  let padded := List.replicate (1 - n).toNat '0' ++ ds
  let ahead := (max n 1).toNat
  let front := padded.take ahead ++ List.replicate (ahead - padded.length) '0'
  match padded.drop ahead with
  | [] => front ++ ['.', '0']
  | back => front ++ '.' :: back

/-- The digits as one digit, a point and the others if there are any, and a signed exponent. -/
def withExponent (ds : List Char) (e : Int) : List Char :=
  let sign := if e < 0 then '-' else '+'
  let tail := 'e' :: sign :: Nat.toDigits 10 e.natAbs
  match ds with
  | [] => tail
  | [d] => d :: tail
  | d :: rest => d :: '.' :: rest ++ tail

/-- Lays out a decimal. -/
def Layout.arrange (f : Layout) (d : Scaled) : List Char :=
  let ds := Nat.toDigits 10 d.digits
  let lead := d.scale + ds.length - 1
  let kept := (ds.reverse.dropWhile (· == '0')).reverse
  let kept := if kept.isEmpty then ['0'] else kept
  if f.first ≤ lead ∧ lead ≤ f.last then pointAfter kept (lead + 1)
  else withExponent kept lead

/-- Writes a finite number. -/
def Layout.write (f : Layout) (x : Float) : String :=
  let text := f.arrange (Binary.ofBits x.toBits).shortest
  String.ofList (if x.toBits.toNat / Nat.pow 2 63 = 1 then '-' :: text else text)

end ChangeDesk.Decimal
