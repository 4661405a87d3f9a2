import Mathlib.Algebra.Group.Nat.Defs
import Mathlib.Data.List.Dedup
import Mathlib.Data.List.Sort

namespace Msai.Portfolio

/-!
# The composition hash (`services/live/portfolio_composition.py`)

The members of a revision are brought into a canonical form and hashed; two revisions with the
same hash are the same composition.

* `Decimal` — Python's finite decimals, with `quantize`, `normalize` and `format(…, "f")`;
* `Member`, `canonicalizeMember` — a member row and its canonical form;
* `computeCompositionHash` — the digest of the members in the order of their index.

`json.dumps` and `sha256` are one parameter.
-/

/-! ### Decimals -/

/-- A finite `Decimal`: `±coefficient · 10 ^ exponent`. -/
structure Decimal where
  negative : Bool
  coefficient : ℕ
  exponent : ℤ
deriving DecidableEq, Repr

namespace Decimal

/-- `c / 10 ^ k`, rounded to the nearest, on a tie to the even one. -/
def divHalfEven (c k : ℕ) : ℕ :=
  let q := c / 10 ^ k
  let r := c % 10 ^ k
  if 2 * r < 10 ^ k then q
  else if 10 ^ k < 2 * r then q + 1
  else if q % 2 = 0 then q
  else q + 1

/-- `quantize(Decimal("0.000001"), ROUND_HALF_EVEN)`. -/
def quantizeWeight (d : Decimal) : Decimal :=
  { d with
    coefficient :=
      if -6 ≤ d.exponent then d.coefficient * 10 ^ (d.exponent + 6).toNat
      else divHalfEven d.coefficient (-6 - d.exponent).toNat
    exponent := -6 }

/-- Trailing zeros go into the exponent, at most `fuel` of them. -/
def stripZeros : ℕ → ℕ → ℤ → ℕ × ℤ
  | 0, c, e => (c, e)
  | fuel + 1, c, e => if c % 10 = 0 then stripZeros fuel (c / 10) (e + 1) else (c, e)

/-- `normalize`.  A number has fewer decimal than binary digits. -/
def normalize (d : Decimal) : Decimal :=
  if d.coefficient = 0 then { d with exponent := 0 }
  else
    let r := stripZeros (d.coefficient.log2 + 1) d.coefficient d.exponent
    { d with coefficient := r.1, exponent := r.2 }

/-- `format(d, "f")`. -/
def formatF (d : Decimal) : String :=
  let digits := (toString d.coefficient).toList
  let body :=
    if 0 ≤ d.exponent then digits ++ List.replicate d.exponent.toNat '0'
    else
      let scale := (-d.exponent).toNat
      let padded := List.replicate (scale + 1 - digits.length) '0' ++ digits
      padded.take (padded.length - scale) ++ '.' :: padded.drop (padded.length - scale)
  String.ofList (if d.negative then '-' :: body else body)

end Decimal

/-! ### Members -/

/-- A `live_portfolio_revision_strategies` row, without the revision it belongs to.  `σ` are the
    ids of strategies, `Γ` the JSON objects. -/
structure Member (σ Γ : Type) where
  strategyId : σ
  config : Γ
  instruments : List String
  weight : Decimal
  orderIndex : ℕ
deriving DecidableEq, Repr

/-- What is hashed of a member. -/
structure CanonicalMember (Γ : Type) where
  strategyId : String
  orderIndex : ℕ
  config : Γ
  instruments : List String
  weight : String
deriving DecidableEq, Repr

/-- `UUID.hex`, and `json.dumps(…, sort_keys=True)` followed by `sha256(…).hexdigest()`. -/
structure HashLib (σ Γ : Type) where
  hex : σ → String
  digest : List (CanonicalMember Γ) → String

variable {σ Γ : Type}

/-- `_canonicalize_member`. -/
def canonicalizeMember (lib : HashLib σ Γ) (m : Member σ Γ) : CanonicalMember Γ :=
  { strategyId := lib.hex m.strategyId
    orderIndex := m.orderIndex
    config := m.config
    instruments := m.instruments.dedup.insertionSort (· ≤ ·)
    weight := m.weight.quantizeWeight.normalize.formatF }

/-- Members in the order of their index. -/
def sortMembers (members : List (Member σ Γ)) : List (Member σ Γ) :=
  members.insertionSort fun m m' => m.orderIndex ≤ m'.orderIndex

/-- `compute_composition_hash`. -/
def computeCompositionHash (lib : HashLib σ Γ) (members : List (Member σ Γ)) : String :=
  lib.digest ((sortMembers members).map (canonicalizeMember lib))

end Msai.Portfolio
