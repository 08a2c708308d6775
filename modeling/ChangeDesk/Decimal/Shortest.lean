/-!
# The fewest digits that read back

A finite double is `mantissa * 2 ^ exponent`. The reals that round to it form an interval from
halfway to the neighbour below to halfway to the neighbour above, with its ends exactly when the
mantissa is even. Of the decimals in that interval with the fewest digits the one nearest to the
value is chosen. Everything is decided by cross-multiplying naturals.
-/

namespace ChangeDesk.Decimal

/-- A magnitude `mantissa * 2 ^ exponent`; `narrow` says that the gap below it is half the gap
above. -/
structure Binary where
  mantissa : Nat
  exponent : Int
  narrow : Bool
deriving DecidableEq, Repr

/-- The magnitude written as 64 bits; the sign bit is not looked at. -/
def Binary.ofBits (bits : UInt64) : Binary :=
  let field : Nat := (bits.toNat / Nat.pow 2 52) % Nat.pow 2 11
  let fraction : Nat := bits.toNat % Nat.pow 2 52
  if field = 0 then ⟨fraction, -1074, false⟩
  else ⟨fraction + Nat.pow 2 52, (field : Int) - 1075, fraction == 0 && field != 1⟩

/-- A decimal `digits * 10 ^ scale`. -/
structure Scaled where
  digits : Nat
  scale : Int
deriving DecidableEq, Repr

/-- Compares `d * 10 ^ s` with `m * 2 ^ e`. -/
def compareScaled (d : Nat) (s : Int) (m : Nat) (e : Int) : Ordering :=
  compare (d * Nat.pow 10 s.toNat * Nat.pow 2 (-e).toNat)
    (m * Nat.pow 2 e.toNat * Nat.pow 10 (-s).toNat)

/-- Whether the decimal rounds to the magnitude. The ends of the interval are counted in quarters
of the mantissa's unit. -/
def Binary.reads (b : Binary) (d : Scaled) : Bool :=
  let low := compareScaled d.digits d.scale (4 * b.mantissa - if b.narrow then 1 else 2)
    (b.exponent - 2)
  let high := compareScaled d.digits d.scale (4 * b.mantissa + 2) (b.exponent - 2)
  if b.mantissa % 2 = 0 then low != .lt && high != .gt else low == .gt && high == .lt

/-- The whole part of the magnitude divided by `10 ^ s`. -/
def Binary.floorAt (b : Binary) (s : Int) : Nat :=
  (b.mantissa * Nat.pow 2 b.exponent.toNat * Nat.pow 10 (-s).toNat) /
    (Nat.pow 2 (-b.exponent).toNat * Nat.pow 10 s.toNat)

/-- The decimal exponent of the first digit, for a magnitude that is not zero: no double is
smaller than `10 ^ -350`, so the whole part on that grid keeps all of its places. -/
def Binary.leading (b : Binary) : Int :=
  ((Nat.toDigits 10 (b.floorAt (-350))).length : Int) - 351

/-- The better of the two neighbours of the magnitude among the multiples of `10 ^ s`, if one of
them rounds to it. A tie goes to the even one. -/
def Binary.onGrid? (b : Binary) (s : Int) : Option Scaled :=
  let f := b.floorAt s
  match b.reads ⟨f, s⟩, b.reads ⟨f + 1, s⟩ with
  | true, false => some ⟨f, s⟩
  | false, true => some ⟨f + 1, s⟩
  | false, false => none
  | true, true =>
    match compareScaled (2 * f + 1) s (2 * b.mantissa) b.exponent with
    | .lt => some ⟨f + 1, s⟩
    | .gt => some ⟨f, s⟩
    | .eq => some ⟨if f % 2 = 0 then f else f + 1, s⟩

/-- The fewest digits that read back; zero is the digit zero. -/
def Binary.shortest (b : Binary) : Scaled :=
  if b.mantissa = 0 then ⟨0, 0⟩
  else
    let top := b.leading
    match (List.range 17).findSome? fun (n : Nat) => b.onGrid? (top - n) with
    | some d => d
    | none => ⟨b.floorAt (top - 17), top - 17⟩

/-- Whatever is chosen on a grid rounds to the magnitude. -/
theorem Binary.reads_of_onGrid? {b : Binary} {s : Int} {d : Scaled} (h : b.onGrid? s = some d) :
    b.reads d = true := by
  unfold Binary.onGrid? at h
  simp only at h
  split at h
  · rename_i hf _
    obtain rfl := Option.some.inj h
    exact hf
  · rename_i _ hf
    obtain rfl := Option.some.inj h
    exact hf
  · simp at h
  · rename_i hf hg
    split at h
    · obtain rfl := Option.some.inj h
      exact hg
    · obtain rfl := Option.some.inj h
      exact hf
    · obtain rfl := Option.some.inj h
      split
      · exact hf
      · exact hg

end ChangeDesk.Decimal
