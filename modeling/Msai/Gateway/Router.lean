import Msai.Lib.Dict
import Msai.Lib.IndexedFold
import Msai.Lib.PyInt
import Msai.Lib.PyText

namespace Msai.Gateway

open Msai.Lib

/-!
# The gateway router (`services/live/gateway_router.py`)

`GATEWAY_CONFIG` binds IB logins to gateways and, in optional segments, to accounts.

* `GatewayRouter` — what the constructor builds: one endpoint a login and one login an endpoint;
* `GatewayRouter.ofConfig` — the constructor, or the text of its `ValueError`;
* `entryTexts`, `writtenSegments` — the entries of the text, and the accounts of their segments;
* `Faithful` — the router says what the text says;
* `GatewayRouter.Holds` — what the router keeps of the entries it has read;
* `gateway_router_iff` — it is faithful exactly if no segment of an entry names an account that the
  last one does not.

The arguments are `repr` of a text and, for `int`, the decimal digits beyond ASCII.
-/

/-! ### The router -/

structure GatewayEndpoint where
  host : String
  port : ℤ
deriving DecidableEq, Repr

/-- `_routes` and `_accounts`. -/
structure GatewayRouter where
  routes : Dict String GatewayEndpoint
  accounts : Dict String (List String)
  logins_nodup : routes.keys.Nodup
  endpoints_nodup : routes.values.Nodup
  bound : accounts.keys = routes.keys

namespace GatewayRouter

def empty : GatewayRouter where
  routes := []
  accounts := []
  logins_nodup := .nil
  endpoints_nodup := .nil
  bound := rfl

/-- `login_keys`. -/
def loginKeys (r : GatewayRouter) : List String := r.routes.keys

/-- `resolve`. -/
def resolve (repr : String → String) (r : GatewayRouter) (ibLoginKey : String) :
    Except String GatewayEndpoint :=
  match r.routes.get ibLoginKey with
  | some endpoint => .ok endpoint
  | none => .error ("No gateway configured for IB login '" ++ ibLoginKey ++ "'. Available: [" ++
      ", ".intercalate (r.loginKeys.map repr) ++ "]")

/-- `accounts_for`. -/
def accountsFor (r : GatewayRouter) (ibLoginKey : String) : List String :=
  (r.accounts.get ibLoginKey).getD []

/-- The two assignments at the end of the loop, behind its two checks. -/
def assign (r : GatewayRouter) (loginKey : String) (endpoint : GatewayEndpoint)
    (accounts : List String) (hlogin : loginKey ∉ r.routes.keys)
    (hendpoint : endpoint ∉ r.routes.values) : GatewayRouter where
  routes := r.routes.set loginKey endpoint
  accounts := r.accounts.set loginKey accounts
  logins_nodup := Dict.nodup_keys_set r.logins_nodup
  endpoints_nodup := by
    rw [Dict.set_of_notMem hlogin, Dict.values, List.map_append]
    exact r.endpoints_nodup.append (List.nodup_singleton _) (by simpa using hendpoint)
  bound := by rw [Dict.keys_set, Dict.keys_set, r.bound]

end GatewayRouter

/-! ### The constructor -/

/-- `"accounts="`. -/
def accountsMark : List Char := "accounts=".toList

/-- `[a.strip() for a in stripped[len("accounts="):].split("|") if a.strip()]`. -/
def segmentAccounts (stripped : List Char) : List String :=
  ((((stripped.drop accountsMark.length).splitOn '|').map PyText.stripChars).filter
    fun a => !a.isEmpty).map String.ofList

/-- One segment behind the port. -/
def readSegment (repr : String → String) (entry extra : List Char) : Except String (List String) :=
  let stripped := PyText.stripChars extra
  let start := "malformed GATEWAY_CONFIG segment in entry " ++ repr (String.ofList entry) ++ ": "
  if stripped.isEmpty then
    .error (start ++ "empty token after ``login:host:port`` (likely a trailing colon). Use " ++
      "``login:host:port`` for unbound logins, or ``login:host:port:accounts=A|B`` for bound.")
  else if !accountsMark.isPrefixOf stripped then
    .error (start ++ "extra token " ++ repr (String.ofList extra) ++ " — only " ++
      "``accounts=A1|A2|...`` is permitted after ``login:host:port``.")
  else
    let accounts := segmentAccounts stripped
    if accounts.isEmpty then
      .error (start ++ "``accounts=`` segment must list at least one account_id (empty bindings " ++
        "are not permitted — use ``login:host:port`` without the segment for unbound logins).")
    else .ok accounts

/-- The loop over the segments; `accounts` is what the one before has assigned. -/
def readSegments (repr : String → String) (entry : List Char) (accounts : List String) :
    List (List Char) → Except String (List String)
  | [] => .ok accounts
  | extra :: extras =>
    (readSegment repr entry extra).bind fun accounts => readSegments repr entry accounts extras

/-- `int` of a field. -/
def intField (wideDigit : ℕ → Option ℕ) (field : List Char) : Option ℤ :=
  PyInt.intText wideDigit 10 (codes field)

section Constructor

variable (repr : String → String) (wideDigit : ℕ → Option ℕ)

/-- The end of the loop: the two checks and the assignments. -/
def addLogin (r : GatewayRouter) (loginKey : String) (endpoint : GatewayEndpoint)
    (accounts : List String) : Except String GatewayRouter :=
  if hlogin : loginKey ∈ r.routes.keys then
    .error ("duplicate ib_login_key " ++ repr loginKey ++ " in GATEWAY_CONFIG")
  else if hendpoint : endpoint ∈ r.routes.values then
    let collidingLogin := ((r.routes.find? fun p => p.2 = endpoint).map Prod.fst).getD ""
    .error ("duplicate gateway endpoint " ++ endpoint.host ++ ":" ++ toString endpoint.port ++
      " in GATEWAY_CONFIG (already used by ib_login_key " ++ repr collidingLogin ++
      "); two logins sharing one physical gateway would bypass per-session startup serialization")
  else .ok (r.assign loginKey endpoint accounts hlogin hendpoint)

/-- The body of the loop over the entries. -/
def addEntry (r : GatewayRouter) (piece : List Char) : Except String GatewayRouter :=
  let entry := PyText.stripChars piece
  if entry.isEmpty then .ok r
  else
    match entry.splitOn ':' with
    | loginPart :: hostPart :: portPart :: extras =>
      let loginKey := String.ofList (PyText.stripChars loginPart)
      let host := String.ofList (PyText.stripChars hostPart)
      let portText := PyText.stripChars portPart
      match intField wideDigit portText with
      | none =>
        .error ("invalid literal for int() with base 10: " ++ repr (String.ofList portText))
      | some port =>
        (readSegments repr entry [] extras).bind fun accounts =>
          addLogin repr r loginKey { host := host, port := port } accounts
    | _ =>
      .error ("malformed GATEWAY_CONFIG entry: " ++ repr (String.ofList entry) ++
        " (expected login:host:port[:accounts=A1|A2|...])")

/-- `GatewayRouter.__init__`. -/
def GatewayRouter.ofConfig (configStr : Option String) : Except String GatewayRouter :=
  let config := configStr.getD ""
  if config = "" then .ok .empty
  else (config.toList.splitOn ',').foldlM (addEntry repr wideDigit) .empty

end Constructor

/-! ### What the text says -/

/-- The entries. -/
def entryTexts (configStr : Option String) : List (List Char) :=
  ((((configStr.getD "").toList.splitOn ',').map PyText.stripChars)).filter fun e => !e.isEmpty

/-- The first three fields of an entry. -/
def loginOf (entry : List Char) : String :=
  String.ofList (PyText.stripChars ((entry.splitOn ':').getD 0 []))

def hostOf (entry : List Char) : String :=
  String.ofList (PyText.stripChars ((entry.splitOn ':').getD 1 []))

def portText (entry : List Char) : List Char := PyText.stripChars ((entry.splitOn ':').getD 2 [])

/-- The accounts of each segment. -/
def writtenSegments (entry : List Char) : List (List String) :=
  ((entry.splitOn ':').drop 3).map fun extra => segmentAccounts (PyText.stripChars extra)

/-- The accounts of the last one. -/
def lastSegment (entry : List Char) : List String := (writtenSegments entry).getLastD []

/-- The router says what the text says. -/
structure Faithful (repr : String → String) (wideDigit : ℕ → Option ℕ)
    (configStr : Option String) (r : GatewayRouter) : Prop where
  /-- One entry a login. -/
  logins : r.loginKeys = (entryTexts configStr).map loginOf ∧ r.loginKeys.Nodup
  resolves : ∀ entry ∈ entryTexts configStr, ∃ port,
    intField wideDigit (portText entry) = some port ∧
      r.resolve repr (loginOf entry) = .ok { host := hostOf entry, port := port }
  distinct : ∀ login login' endpoint, r.resolve repr login = .ok endpoint →
    r.resolve repr login' = .ok endpoint → login = login'
  accounts : ∀ entry ∈ entryTexts configStr, ∀ account,
    account ∈ r.accountsFor (loginOf entry) ↔ ∃ segment ∈ writtenSegments entry, account ∈ segment
  unbound : ∀ entry ∈ entryTexts configStr,
    r.accountsFor (loginOf entry) = [] → writtenSegments entry = []

/-- The last segment of every entry names all of its accounts. -/
def LastNamesAll (configStr : Option String) : Prop :=
  ∀ entry ∈ entryTexts configStr, ∀ segment ∈ writtenSegments entry, ∀ account ∈ segment,
    account ∈ lastSegment entry

instance (configStr : Option String) : Decidable (LastNamesAll configStr) :=
  inferInstanceAs (Decidable (∀ entry ∈ _, _))

/-! ### One entry -/

section Entry

variable {repr : String → String} {wideDigit : ℕ → Option ℕ} {r r' : GatewayRouter}
  {entry piece extra : List Char} {extras : List (List Char)} {accounts acc : List String}

theorem readSegment_ok (h : readSegment repr entry extra = .ok accounts) :
    segmentAccounts (PyText.stripChars extra) = accounts ∧ accounts ≠ [] := by
  simp only [readSegment] at h
  split at h
  · cases h
  · split at h
    · cases h
    · split at h
      · cases h
      · rename_i hne
        obtain rfl := Except.ok.inj h
        exact ⟨rfl, fun hnil => hne (List.isEmpty_iff.mpr hnil)⟩

/-- **The last segment** is the one that stays. -/
theorem readSegments_ok (h : readSegments repr entry acc extras = .ok accounts) :
    accounts = (extras.map fun extra => segmentAccounts (PyText.stripChars extra)).getLastD acc ∧
      ∀ extra ∈ extras, segmentAccounts (PyText.stripChars extra) ≠ [] := by
  induction extras generalizing acc with
  | nil =>
    obtain rfl := Except.ok.inj h
    exact ⟨rfl, nofun⟩
  | cons extra extras ih =>
    rw [readSegments] at h
    obtain ⟨first, hread, hrest⟩ := except_bind_eq_ok h
    obtain ⟨hfirst, hne⟩ := readSegment_ok hread
    obtain ⟨hlast, hmore⟩ := ih hrest
    refine ⟨?_, List.forall_mem_cons.mpr ⟨hfirst ▸ hne, hmore⟩⟩
    rw [hlast, List.map_cons, List.getLastD_cons, hfirst]

/-- What an accepted entry says of itself, and what is assigned. -/
structure Assigns (wideDigit : ℕ → Option ℕ) (entry : List Char) (r r' : GatewayRouter) : Prop where
  assign : ∃ port hlogin hendpoint, intField wideDigit (portText entry) = some port ∧
    r' = r.assign (loginOf entry) { host := hostOf entry, port := port } (lastSegment entry)
      hlogin hendpoint
  segments : ∀ segment ∈ writtenSegments entry, segment ≠ []

/-- An accepted login and its endpoint are new. -/
theorem addLogin_ok {loginKey : String} {endpoint : GatewayEndpoint}
    (h : addLogin repr r loginKey endpoint accounts = .ok r') :
    ∃ hlogin hendpoint, r' = r.assign loginKey endpoint accounts hlogin hendpoint := by
  unfold addLogin at h
  split at h
  · cases h
  · rename_i hlogin
    split at h
    · cases h
    · rename_i hendpoint
      exact ⟨hlogin, hendpoint, (Except.ok.inj h).symm⟩

/-- **One entry.** -/
theorem addEntry_ok (h : addEntry repr wideDigit r piece = .ok r') :
    (PyText.stripChars piece = [] ∧ r' = r) ∨
      (PyText.stripChars piece ≠ [] ∧ Assigns wideDigit (PyText.stripChars piece) r r') := by
  simp only [addEntry] at h
  split at h
  · rename_i hempty
    exact Or.inl ⟨List.isEmpty_iff.mp hempty, (Except.ok.inj h).symm⟩
  · rename_i hne
    refine Or.inr ⟨fun hnil => hne (List.isEmpty_iff.mpr hnil), ?_⟩
    generalize PyText.stripChars piece = entry at h
    split at h
    · rename_i loginPart hostPart portPart extras hfields
      split at h
      · cases h
      · rename_i port hport
        obtain ⟨accounts, hread, hadd⟩ := except_bind_eq_ok h
        obtain ⟨hlast, hsegments⟩ := readSegments_ok hread
        obtain ⟨hlogin, hendpoint, rfl⟩ := addLogin_ok hadd
        have hlogin' : loginOf entry = String.ofList (PyText.stripChars loginPart) := by
          rw [loginOf, hfields]
          rfl
        have hhost : hostOf entry = String.ofList (PyText.stripChars hostPart) := by
          rw [hostOf, hfields]
          rfl
        have hport' : portText entry = PyText.stripChars portPart := by
          rw [portText, hfields]
          rfl
        have hwritten : writtenSegments entry =
            extras.map fun extra => segmentAccounts (PyText.stripChars extra) := by
          rw [writtenSegments, hfields]
          rfl
        refine ⟨⟨port, hlogin' ▸ hlogin, hhost ▸ hendpoint, hport' ▸ hport, ?_⟩, ?_⟩
        · simp only [hlogin', hhost, lastSegment, hwritten, hlast]
        · rw [hwritten]
          intro segment hmem
          obtain ⟨extra, hextra, rfl⟩ := List.mem_map.mp hmem
          exact hsegments extra hextra
    · cases h

end Entry

/-! ### All entries -/

section Entries

variable {repr : String → String} {wideDigit : ℕ → Option ℕ} {r r' : GatewayRouter}
  {entry : List Char} {entries pieces : List (List Char)} {configStr : Option String}

/-- What the router has of the entries read so far. -/
structure GatewayRouter.Holds (wideDigit : ℕ → Option ℕ) (entries : List (List Char))
    (r : GatewayRouter) : Prop where
  logins : r.loginKeys = entries.map loginOf
  routes : ∀ entry ∈ entries, ∃ port, intField wideDigit (portText entry) = some port ∧
    r.routes.get (loginOf entry) = some { host := hostOf entry, port := port }
  accounts : ∀ entry ∈ entries, r.accounts.get (loginOf entry) = some (lastSegment entry)
  segments : ∀ entry ∈ entries, ∀ segment ∈ writtenSegments entry, segment ≠ []

theorem GatewayRouter.holds_empty : GatewayRouter.empty.Holds wideDigit [] where
  logins := rfl
  routes := nofun
  accounts := nofun
  segments := nofun

/-- **Step.**  The login of an entry is new, and the earlier ones keep what they have. -/
theorem GatewayRouter.Holds.assigns (hr : r.Holds wideDigit entries)
    (h : Assigns wideDigit entry r r') : r'.Holds wideDigit (entries ++ [entry]) := by
  obtain ⟨⟨port, hlogin, hendpoint, hport, rfl⟩, hsegments⟩ := h
  have hne : ∀ earlier ∈ entries, loginOf entry ≠ loginOf earlier := by
    intro earlier hmem heq
    have hkeys : r.routes.keys = entries.map loginOf := hr.logins
    rw [hkeys, heq] at hlogin
    exact hlogin (List.mem_map_of_mem hmem)
  constructor
  · have hkeys := hr.logins
    rw [loginKeys] at hkeys ⊢
    rw [assign, Dict.keys_set, if_neg hlogin, hkeys, List.map_append, List.map_singleton]
  · refine List.forall_mem_append.mpr ⟨fun earlier hmem => ?_, List.forall_mem_singleton.mpr ?_⟩
    · obtain ⟨port', hport', hget⟩ := hr.routes earlier hmem
      refine ⟨port', hport', ?_⟩
      rw [assign, Dict.get_set, if_neg (hne earlier hmem), hget]
    · refine ⟨port, hport, ?_⟩
      rw [assign, Dict.get_set, if_pos rfl]
  · refine List.forall_mem_append.mpr ⟨fun earlier hmem => ?_, List.forall_mem_singleton.mpr ?_⟩
    · rw [assign, Dict.get_set, if_neg (hne earlier hmem), hr.accounts earlier hmem]
    · rw [assign, Dict.get_set, if_pos rfl]
  · exact List.forall_mem_append.mpr ⟨hr.segments, List.forall_mem_singleton.mpr hsegments⟩

/-- **Run.** -/
theorem GatewayRouter.Holds.run (hr : r.Holds wideDigit entries)
    (h : pieces.foldlM (addEntry repr wideDigit) r = .ok r') :
    r'.Holds wideDigit
      (entries ++ (pieces.map PyText.stripChars).filter fun e => !e.isEmpty) := by
  induction pieces generalizing r entries with
  | nil =>
    obtain rfl := Except.ok.inj h
    simpa using hr
  | cons piece pieces ih =>
    rw [List.foldlM_cons] at h
    obtain ⟨r₁, hstep, hrest⟩ := except_bind_eq_ok h
    rw [List.map_cons]
    rcases addEntry_ok hstep with ⟨hnil, rfl⟩ | ⟨hne, hassigns⟩
    · rw [hnil]
      exact ih hr hrest
    · have hkeep : (!(PyText.stripChars piece).isEmpty) = true := by simpa using hne
      rw [List.filter_cons, if_pos hkeep, List.append_cons]
      exact ih (hr.assigns hassigns) hrest

/-- **What the constructor builds.** -/
theorem holds_ofConfig (h : GatewayRouter.ofConfig repr wideDigit configStr = .ok r) :
    r.Holds wideDigit (entryTexts configStr) := by
  simp only [GatewayRouter.ofConfig] at h
  split at h
  · rename_i hempty
    obtain rfl := Except.ok.inj h
    have hnone : entryTexts configStr = [] := by
      rw [entryTexts, hempty]
      rfl
    rw [hnone]
    exact GatewayRouter.holds_empty
  · exact GatewayRouter.holds_empty.run h

theorem GatewayRouter.resolve_eq_ok {login : String} {endpoint : GatewayEndpoint} :
    r.resolve repr login = .ok endpoint ↔ r.routes.get login = some endpoint := by
  rw [resolve]
  cases r.routes.get login <;> simp

/-- Two logins that resolve to one endpoint are the same. -/
theorem GatewayRouter.login_unique {login login' : String} {endpoint : GatewayEndpoint}
    (h : r.resolve repr login = .ok endpoint) (h' : r.resolve repr login' = .ok endpoint) :
    login = login' := by
  have hmem := (Dict.mem_iff_get r.logins_nodup).mpr (resolve_eq_ok.mp h)
  have hmem' := (Dict.mem_iff_get r.logins_nodup).mpr (resolve_eq_ok.mp h')
  exact congrArg Prod.fst (List.inj_on_of_nodup_map r.endpoints_nodup hmem hmem' rfl)

theorem GatewayRouter.Holds.accountsFor_eq (hr : r.Holds wideDigit entries)
    (hentry : entry ∈ entries) : r.accountsFor (loginOf entry) = lastSegment entry := by
  rw [accountsFor, hr.accounts entry hentry, Option.getD_some]

/-- The last segment is one of those written, if there is one. -/
theorem lastSegment_mem (hne : writtenSegments entry ≠ []) :
    lastSegment entry ∈ writtenSegments entry := by
  rw [lastSegment, List.getLastD_eq_getLast?, List.getLast?_eq_some_getLast hne, Option.getD_some]
  exact List.getLast_mem hne

/-- **The router is faithful** exactly if the last segment of every entry names all the accounts
    that the entry binds. -/
theorem gateway_router_iff (h : GatewayRouter.ofConfig repr wideDigit configStr = .ok r) :
    Faithful repr wideDigit configStr r ↔ LastNamesAll configStr := by
  have hr := holds_ofConfig h
  refine ⟨fun hfaithful entry hentry segment hsegment account haccount => ?_, fun hall => ?_⟩
  · rw [← hr.accountsFor_eq hentry]
    exact (hfaithful.accounts entry hentry account).mpr ⟨segment, hsegment, haccount⟩
  · constructor
    · exact ⟨hr.logins, r.logins_nodup⟩
    · intro entry hentry
      obtain ⟨port, hport, hget⟩ := hr.routes entry hentry
      exact ⟨port, hport, GatewayRouter.resolve_eq_ok.mpr hget⟩
    · exact fun login login' endpoint => GatewayRouter.login_unique
    · intro entry hentry account
      rw [hr.accountsFor_eq hentry]
      refine ⟨fun hlast => ?_, fun ⟨segment, hsegment, haccount⟩ =>
        hall entry hentry segment hsegment account haccount⟩
      by_cases hnone : writtenSegments entry = []
      · rw [lastSegment, hnone] at hlast
        cases hlast
      · exact ⟨_, lastSegment_mem hnone, hlast⟩
    · intro entry hentry hnil
      rw [hr.accountsFor_eq hentry] at hnil
      by_contra hsome
      exact hr.segments entry hentry _ (lastSegment_mem hsome) hnil

end Entries

/-! ### Two gateways, and a segment that is repeated -/

/-- `repr` of a text without quotes, backslashes and control characters. -/
def plainRepr (s : String) : String := "'" ++ s ++ "'"

def twoGateways : String :=
  " marin1016test:ib-gateway:4002:accounts=DUP733214|DUP733215,mslvp000 : ib-gateway-lvp : 4003,"

def repeatedSegment : String :=
  "marin1016test:ib-gateway:4002:accounts=DUP733214:accounts=DUP733215"

/-- The theorem at two gateways. -/
theorem gateway_router_iff_two : ∃ r,
    GatewayRouter.ofConfig plainRepr (fun _ => none) (some twoGateways) = .ok r ∧
      Faithful plainRepr (fun _ => none) (some twoGateways) r := by
  have hok : (GatewayRouter.ofConfig plainRepr (fun _ => none) (some twoGateways)).isOk = true := by
    decide +kernel
  cases hconfig : GatewayRouter.ofConfig plainRepr (fun _ => none) (some twoGateways) with
  | error text =>
    rw [hconfig] at hok
    cases hok
  | ok r => exact ⟨r, rfl, (gateway_router_iff hconfig).mpr (by decide +kernel)⟩

/-- Of two segments the first is dropped. -/
theorem gateway_router_fails : ∃ r,
    GatewayRouter.ofConfig plainRepr (fun _ => none) (some repeatedSegment) = .ok r ∧
      r.accountsFor "marin1016test" = ["DUP733215"] ∧
      ¬ Faithful plainRepr (fun _ => none) (some repeatedSegment) r := by
  have hbound : (GatewayRouter.ofConfig plainRepr (fun _ => none) (some repeatedSegment)).map
      (·.accountsFor "marin1016test") = .ok ["DUP733215"] := by decide +kernel
  obtain ⟨r, hconfig, haccounts⟩ := except_map_eq_ok hbound
  refine ⟨r, hconfig, haccounts, fun hfaithful => ?_⟩
  have hentries : repeatedSegment.toList ∈ entryTexts (some repeatedSegment) := by decide +kernel
  have hlogin : loginOf repeatedSegment.toList = "marin1016test" := by decide +kernel
  have hwritten : ["DUP733214"] ∈ writtenSegments repeatedSegment.toList := by decide +kernel
  have hmem := (hfaithful.accounts _ hentries "DUP733214").mpr
    ⟨_, hwritten, List.mem_cons_self⟩
  rw [hlogin, haccounts] at hmem
  exact absurd hmem (by decide)

end Msai.Gateway
