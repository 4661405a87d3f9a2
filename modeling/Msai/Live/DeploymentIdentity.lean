import Msai.Lib.JsonObject
import Msai.Portfolio.Identity

namespace Msai.Live.DeploymentIdentity

open Msai.Lib Msai.Portfolio

/-!
# The identity of a deployment (`services/live/deployment_identity.py`)

A start of a portfolio hashes who starts which revision on which account, and with the hash it
finds the deployment that it restarts warm.

* `canonicalizeUserId`, `PortfolioDeploymentIdentity`, `derivePortfolioDeploymentIdentity` — the
  identity, and the text that is hashed; `sha` is a parameter;
* `Caller` — who starts a portfolio, as far as the identity knows;
* `identitySignature_eq_iff` — the starts that have one signature.
-/

/-! ### The identity -/

/-- `canonicalize_user_id`. -/
def canonicalizeUserId (userId : Option Uuid) (fallbackSub : Option String) : String :=
  match userId, fallbackSub with
  | some userId, _ => userId.hex
  | none, some fallbackSub => if fallbackSub = "" then "" else "sub:" ++ fallbackSub
  | none, none => ""

structure PortfolioDeploymentIdentity where
  startedBy : String
  portfolioRevisionId : String
  accountId : String
  paperTrading : Bool
  ibLoginKey : String
deriving DecidableEq, Repr

/-- `asdict(self)`. -/
def PortfolioDeploymentIdentity.asdict (i : PortfolioDeploymentIdentity) :
    List (String × Json) :=
  [("started_by", .str i.startedBy), ("portfolio_revision_id", .str i.portfolioRevisionId),
    ("account_id", .str i.accountId), ("paper_trading", .bool i.paperTrading),
    ("ib_login_key", .str i.ibLoginKey)]

/-- `to_canonical_json`. -/
def PortfolioDeploymentIdentity.toCanonicalJson (i : PortfolioDeploymentIdentity) : String :=
  String.ofList ((Json.obj i.asdict).dumps .compact)

/-- `signature`. -/
def PortfolioDeploymentIdentity.signature (sha : String → String)
    (i : PortfolioDeploymentIdentity) : String := sha i.toCanonicalJson

/-- The arguments of `derive_portfolio_deployment_identity`. -/
structure PortfolioStart where
  userId : Option Uuid
  userSub : Option String
  portfolioRevisionId : Uuid
  accountId : String
  paperTrading : Bool
  ibLoginKey : String
deriving DecidableEq

/-- Revision and account: `uq_live_deployments_revision_account`. -/
def PortfolioStart.place (start : PortfolioStart) : Uuid × String :=
  (start.portfolioRevisionId, start.accountId)

/-- `derive_portfolio_deployment_identity`. -/
def derivePortfolioDeploymentIdentity (start : PortfolioStart) : PortfolioDeploymentIdentity where
  startedBy := canonicalizeUserId start.userId start.userSub
  portfolioRevisionId := start.portfolioRevisionId.hex
  accountId := start.accountId
  paperTrading := start.paperTrading
  ibLoginKey := start.ibLoginKey

/-! ### Who starts -/

/-- The caller behind a start. -/
inductive Caller
  | user (id : Uuid)
  /-- A caller without a row in `users`, by the claim of its token. -/
  | sub (claim : String)
  | anonymous
deriving DecidableEq

/-- An empty claim is none. -/
def PortfolioStart.caller (start : PortfolioStart) : Caller :=
  match start.userId, start.userSub with
  | some userId, _ => .user userId
  | none, some claim => if claim = "" then .anonymous else .sub claim
  | none, none => .anonymous

section Signature

variable {sha : String → String} {u u' : Uuid} {start start' : PortfolioStart}
  {i i' : PortfolioDeploymentIdentity}

theorem toList_hex (u : Uuid) : u.hex.toList = hexPadded 32 u.toNat := String.toList_ofList

theorem hex_inj (h : u.hex = u'.hex) : u = u' := by
  have hdigits := congrArg (fun s : String => hexNumber (codes s.toList)) h
  simp only [toList_hex] at hdigits
  rw [hexNumber_hexPadded (by norm_num) (u.isLt.trans_le (by norm_num)),
    hexNumber_hexPadded (by norm_num) (u'.isLt.trans_le (by norm_num))] at hdigits
  exact BitVec.eq_of_toNat_eq (Option.some.inj hdigits)

/-- An id begins with a digit, and a claim does not. -/
theorem hex_ne_sub (claim : String) : u.hex ≠ "sub:" ++ claim := by
  intro h
  have hlist := congrArg String.toList h
  rw [toList_hex, String.toList_append] at hlist
  have hmem : 's' ∈ hexPadded 32 u.toNat := by
    rw [hlist]
    exact List.mem_append_left _ (by decide)
  obtain ⟨d, hd, hc⟩ := mem_hexPadded (by norm_num) (u.isLt.trans_le (by norm_num)) hmem
  interval_cases d <;> exact absurd hc (by decide)

theorem hex_ne_empty : u.hex ≠ "" := by
  intro h
  have hlength := congrArg (fun s : String => s.toList.length) h
  simp only [toList_hex] at hlength
  rw [length_hexPadded (by norm_num) (u.isLt.trans_le (by norm_num))] at hlength
  exact absurd hlength (by decide)

/-- The text of a caller. -/
def Caller.text : Caller → String
  | .user id => id.hex
  | .sub claim => "sub:" ++ claim
  | .anonymous => ""

theorem canonicalizeUserId_eq : canonicalizeUserId start.userId start.userSub =
    start.caller.text := by
  unfold canonicalizeUserId PortfolioStart.caller
  cases start.userId with
  | some id => rfl
  | none =>
    cases start.userSub with
    | none => rfl
    | some claim =>
      by_cases hclaim : claim = ""
      · simp [hclaim, Caller.text]
      · simp [hclaim, Caller.text]

/-- Two callers have different texts. -/
theorem Caller.text_inj {c c' : Caller} (h : c.text = c'.text) : c = c' := by
  have hstart : ∀ claim : String, "sub:" ++ claim ≠ "" := by
    intro claim hempty
    have hlist := congrArg String.toList hempty
    rw [String.toList_append] at hlist
    exact absurd (List.append_eq_nil_iff.mp hlist).1 (by decide)
  cases c with
  | user id =>
    cases c' with
    | user id' => rw [hex_inj h]
    | sub claim => exact absurd h (hex_ne_sub claim)
    | anonymous => exact absurd h hex_ne_empty
  | sub claim =>
    cases c' with
    | user id' => exact absurd h.symm (hex_ne_sub claim)
    | sub claim' =>
      have hlist := congrArg String.toList h
      simp only [Caller.text, String.toList_append] at hlist
      rw [String.toList_inj.mp (List.append_cancel_left hlist)]
    | anonymous => exact absurd h (hstart claim)
  | anonymous =>
    cases c' with
    | user id' => exact absurd h.symm hex_ne_empty
    | sub claim' => exact absurd h.symm (hstart claim')
    | anonymous => rfl

/-- The hashed text determines the identity. -/
theorem toCanonicalJson_inj (h : i.toCanonicalJson = i'.toCanonicalJson) : i = i' := by
  have hnumbers : ∀ i : PortfolioDeploymentIdentity, (Json.obj i.asdict).NumbersOk := by
    intro i s hs
    simp [PortfolioDeploymentIdentity.asdict, Json.numbers, Json.numbersOfFields] at hs
  have hkeys : ∀ i : PortfolioDeploymentIdentity, (Dict.keys i.asdict).Nodup := by
    intro i
    show ["started_by", "portfolio_revision_id", "account_id", "paper_trading",
      "ib_login_key"].Nodup
    decide
  have hvalues := (@Json.dumps_obj_eq_iff_get .compact _ _ ⟨[], rfl⟩ (hnumbers i) (hnumbers i')
    (hkeys i) (hkeys i')).mp (String.ofList_injective h)
  have hstarted : i.startedBy = i'.startedBy := by
    simpa [PortfolioDeploymentIdentity.asdict, Dict.get, Json.sorted] using hvalues "started_by"
  have hrevision : i.portfolioRevisionId = i'.portfolioRevisionId := by
    simpa [PortfolioDeploymentIdentity.asdict, Dict.get, Json.sorted]
      using hvalues "portfolio_revision_id"
  have haccount : i.accountId = i'.accountId := by
    simpa [PortfolioDeploymentIdentity.asdict, Dict.get, Json.sorted] using hvalues "account_id"
  have hpaper : i.paperTrading = i'.paperTrading := by
    simpa [PortfolioDeploymentIdentity.asdict, Dict.get, Json.sorted] using hvalues "paper_trading"
  have hlogin : i.ibLoginKey = i'.ibLoginKey := by
    simpa [PortfolioDeploymentIdentity.asdict, Dict.get, Json.sorted] using hvalues "ib_login_key"
  cases i
  cases i'
  simp_all

/-- Two starts agree in everything that the identity is made of. -/
def PortfolioStart.SameIdentity (start start' : PortfolioStart) : Prop :=
  start.caller = start'.caller ∧ start.portfolioRevisionId = start'.portfolioRevisionId ∧
    start.accountId = start'.accountId ∧ start.paperTrading = start'.paperTrading ∧
    start.ibLoginKey = start'.ibLoginKey

instance (start start' : PortfolioStart) : Decidable (start.SameIdentity start') :=
  inferInstanceAs (Decidable (_ ∧ _))

/-- `identity.signature()` of a start. -/
def PortfolioStart.identitySignature (sha : String → String) (start : PortfolioStart) : String :=
  (derivePortfolioDeploymentIdentity start).signature sha

/-- **Which starts have one signature.**  Where no two texts have one digest: those that agree in
    the caller, the revision, the account, the mode and the login. -/
theorem identitySignature_eq_iff (hsha : Function.Injective sha) :
    start.identitySignature sha = start'.identitySignature sha ↔ start.SameIdentity start' := by
  constructor
  · intro h
    have hidentity := toCanonicalJson_inj (hsha h)
    have hcaller := congrArg PortfolioDeploymentIdentity.startedBy hidentity
    have hrevision := congrArg PortfolioDeploymentIdentity.portfolioRevisionId hidentity
    simp only [derivePortfolioDeploymentIdentity, canonicalizeUserId_eq] at hcaller hrevision
    exact ⟨Caller.text_inj hcaller, hex_inj hrevision,
      congrArg PortfolioDeploymentIdentity.accountId hidentity,
      congrArg PortfolioDeploymentIdentity.paperTrading hidentity,
      congrArg PortfolioDeploymentIdentity.ibLoginKey hidentity⟩
  · rintro ⟨hcaller, hrevision, haccount, hpaper, hlogin⟩
    unfold PortfolioStart.identitySignature derivePortfolioDeploymentIdentity
    rw [canonicalizeUserId_eq, canonicalizeUserId_eq, hcaller, hrevision, haccount, hpaper, hlogin]

end Signature

end Msai.Live.DeploymentIdentity
