import Mathlib.Algebra.Order.Ring.Rat
import Mathlib.Tactic.NormNum
import Msai.Lib.Dict
import Msai.Lib.Reminder

namespace Msai.Supervisor.FleetAlerts

open Msai.Lib

/-!
# The fleet alerts (`services/fleet_alerts.py`)

Every few seconds the supervisor looks at the health of the fleet and pages the operator: the
router is silent, a failed deployment is not watched, an account has no command consumer.  A
condition that stays is paged again after a cooldown only.

* `detectFleetAlerts`, `filterAndRecord` — the detector and `FleetAlertDeduper`;
* `Condition`, `FleetHealthSnapshot.Holds` — what may be wrong, and when it is;
* `mem_detect_iff` — the keys of the alerts are those of the conditions that hold;
* `pages_iff` — on which ticks of any run a condition is paged;
* `pages_nodup`, `mem_keys_deduperAfter` — one page for a condition on a tick, and what the deduper
  remembers.

Ages and times are rational numbers of seconds.
-/

/-! ### The detector -/

/-- `str` of a UUID. -/
abbrev UuidText := { s : String // s.length = 36 }

structure DeploymentHealth where
  deploymentId : UuidText
  accountId : String
  status : String
  lastHeartbeatAgeS : Option ℚ
  respawnedSuccessfully : Bool
deriving DecidableEq, Repr

structure FleetHealthSnapshot where
  routerHeartbeatAgeS : Option ℚ
  deployments : List DeploymentHealth
  accountsWithActiveDeployments : List String
  consumedAccounts : List String
deriving DecidableEq, Repr

inductive AlertKind
  | routerSpof
  | flatAndUnmonitored
  | accountConsumerMissing
deriving DecidableEq, Repr

structure FleetAlert where
  kind : AlertKind
  level : String
  subject : String
  body : String
deriving DecidableEq, Repr

/-- `FleetAlert.dedupe_key`. -/
def FleetAlert.dedupeKey (a : FleetAlert) : AlertKind × String := (a.kind, a.subject)

/-- The thresholds of the module, which the environment may override with positive numbers. -/
structure Thresholds where
  routerHeartbeatSpofS : ℚ
  staleDeploymentHeartbeatS : ℚ
  cooldownS : ℚ
  cooldown_pos : 0 < cooldownS

theorem half_hour_pos : (0 : ℚ) < 1800 := by norm_num

/-- The thresholds without overrides. -/
def Thresholds.defaults : Thresholds := ⟨30, 60, 1800, half_hour_pos⟩

/-- `int(x)` in a text: the fraction is dropped. -/
def intText (x : ℚ) : String := toString (Int.tdiv x.num x.den)

variable (th : Thresholds)

def routerSpofSubject : String := "Live supervisor heartbeat stale (fleet unmonitored)"

/-- `_router_spof_alert`. -/
def routerSpofAlert (ageS : Option ℚ) : Option FleetAlert :=
  let alert (body : String) : FleetAlert := ⟨.routerSpof, "critical", routerSpofSubject, body⟩
  match ageS with
  | some age =>
    if age ≤ th.routerHeartbeatSpofS then none
    else
      some (alert ("The live-supervisor (router) heartbeat is " ++ intText age ++
        "s stale (threshold " ++ intText th.routerHeartbeatSpofS ++ "s). The fleet is " ++
        "UNMONITORED: no crashed node is being reaped or auto-restarted. Check the " ++
        "live-supervisor container."))
  | none =>
    some (alert ("The live-supervisor (router) has not published a heartbeat. It may have " ++
      "crashed on startup or never started. The fleet is UNMONITORED: no crashed node is being " ++
      "reaped or auto-restarted. Threshold: " ++ intText th.routerHeartbeatSpofS ++ "s."))

def flatSubject (accountId : String) (deploymentId : UuidText) : String :=
  "FLAT AND UNMONITORED: account " ++ accountId ++ " deployment " ++ deploymentId.val

/-- `_flat_and_unmonitored_alert`. -/
def flatAndUnmonitoredAlert (dep : DeploymentHealth) : Option FleetAlert :=
  if dep.status ≠ "failed" then none
  else if dep.respawnedSuccessfully then none
  else if ∃ age ∈ dep.lastHeartbeatAgeS, age ≤ th.staleDeploymentHeartbeatS then none
  else
    let agePhrase :=
      match dep.lastHeartbeatAgeS with
      | none => "never reported a heartbeat"
      | some age => "a " ++ intText age ++ "s-stale heartbeat"
    some
      { kind := .flatAndUnmonitored
        level := "critical"
        subject := flatSubject dep.accountId dep.deploymentId
        body := "Account " ++ dep.accountId ++ " deployment " ++ dep.deploymentId.val ++
          " is in 'failed' with " ++ agePhrase ++ " (threshold " ++
          intText th.staleDeploymentHeartbeatS ++ "s) and NO successful respawn. The account " ++
          "may be flat or holding an un-monitored position with no live node watching it. " ++
          "Investigate immediately." }

def consumerSubject (accountId : String) : String :=
  "NO COMMAND CONSUMER: account " ++ accountId ++ " (un-stoppable)"

/-- `_account_consumer_missing_alerts`. -/
def accountConsumerMissingAlerts (snapshot : FleetHealthSnapshot) : List FleetAlert :=
  (snapshot.accountsWithActiveDeployments.filter fun accountId =>
      !(accountId = "" || accountId ∈ snapshot.consumedAccounts)).map fun accountId =>
    { kind := .accountConsumerMissing
      level := "critical"
      subject := consumerSubject accountId
      body := "Account " ++ accountId ++ " has an active deployment but NO running command " ++
        "consumer on the live-supervisor. A STOP / kill-all / drain published for this account " ++
        "would strand un-consumed in the command stream — the live node is effectively " ++
        "UN-STOPPABLE via the platform until a consumer attaches. Check the live-supervisor's " ++
        "per-account consumer fan-out / GATEWAY_CONFIG." }

/-- `detect_fleet_alerts`. -/
def detectFleetAlerts (snapshot : FleetHealthSnapshot) : List FleetAlert :=
  (routerSpofAlert th snapshot.routerHeartbeatAgeS).toList ++
    snapshot.deployments.filterMap (flatAndUnmonitoredAlert th) ++
    accountConsumerMissingAlerts snapshot

/-! ### The conditions -/

/-- What may be wrong with the fleet. -/
inductive Condition
  | routerSilent
  | flat (accountId : String) (deploymentId : UuidText)
  | noConsumer (accountId : String)
deriving DecidableEq, Repr

/-- The condition holds of a snapshot. -/
def FleetHealthSnapshot.Holds (snapshot : FleetHealthSnapshot) : Condition → Prop
  | .routerSilent => ∀ age ∈ snapshot.routerHeartbeatAgeS, th.routerHeartbeatSpofS < age
  | .flat accountId deploymentId =>
    ∃ dep ∈ snapshot.deployments, dep.accountId = accountId ∧ dep.deploymentId = deploymentId ∧
      dep.status = "failed" ∧ dep.respawnedSuccessfully = false ∧
      ∀ age ∈ dep.lastHeartbeatAgeS, th.staleDeploymentHeartbeatS < age
  | .noConsumer accountId =>
    accountId ∈ snapshot.accountsWithActiveDeployments ∧ accountId ≠ "" ∧
      accountId ∉ snapshot.consumedAccounts

/-- The key of its alerts. -/
def Condition.key : Condition → AlertKind × String
  | .routerSilent => (.routerSpof, routerSpofSubject)
  | .flat accountId deploymentId => (.flatAndUnmonitored, flatSubject accountId deploymentId)
  | .noConsumer accountId => (.accountConsumerMissing, consumerSubject accountId)

section Detector

variable {th} {snapshot : FleetHealthSnapshot} {c c' : Condition}

/-- What stands between two fixed texts. -/
theorem middle_inj {before after a b : String}
    (h : before ++ a ++ after = before ++ b ++ after) : a = b := by
  have hlist := congrArg String.toList h
  simp only [String.toList_append] at hlist
  exact String.toList_inj.mp (List.append_cancel_left (List.append_cancel_right hlist))

/-- The same before a text of fixed length. -/
theorem middle_inj_of_length {before after a b d d' : String} (hlength : d.length = d'.length)
    (h : before ++ a ++ after ++ d = before ++ b ++ after ++ d') : a = b ∧ d = d' := by
  have hlist := congrArg String.toList h
  rw [String.toList_append, @String.toList_append (before ++ b ++ after)] at hlist
  have hlengths : d.toList.length = d'.toList.length := by
    rw [String.length_toList, String.length_toList, hlength]
  obtain ⟨hfront, hback⟩ := List.append_inj' hlist hlengths
  exact ⟨middle_inj (String.toList_inj.mp hfront), String.toList_inj.mp hback⟩

/-- A subject says of which account and deployment it is. -/
theorem flatSubject_inj {accountId accountId' : String} {deploymentId deploymentId' : UuidText}
    (h : flatSubject accountId deploymentId = flatSubject accountId' deploymentId') :
    accountId = accountId' ∧ deploymentId = deploymentId' := by
  obtain ⟨haccount, hdeployment⟩ :=
    middle_inj_of_length (deploymentId.2.trans deploymentId'.2.symm) h
  exact ⟨haccount, Subtype.ext hdeployment⟩

theorem consumerSubject_inj {accountId accountId' : String}
    (h : consumerSubject accountId = consumerSubject accountId') : accountId = accountId' :=
  middle_inj h

/-- Two conditions have different keys. -/
theorem Condition.key_inj (h : c.key = c'.key) : c = c' := by
  cases c <;> cases c' <;> simp only [Condition.key, Prod.mk.injEq, reduceCtorEq, false_and] at h
  · rfl
  · obtain ⟨rfl, rfl⟩ := flatSubject_inj h.2
    rfl
  · rw [consumerSubject_inj h.2]

theorem routerSpofAlert_eq_some {age : Option ℚ} {a : FleetAlert}
    (h : routerSpofAlert th age = some a) :
    a.dedupeKey = Condition.key .routerSilent ∧ ∀ x ∈ age, th.routerHeartbeatSpofS < x := by
  unfold routerSpofAlert at h
  split at h
  · split at h
    · cases h
    · rename_i x hx
      refine ⟨by rw [← Option.some.inj h]; rfl, fun y hy => ?_⟩
      rw [← Option.some.inj hy]
      exact not_le.mp hx
  · exact ⟨by rw [← Option.some.inj h]; rfl, fun y hy => by cases hy⟩

theorem routerSpofAlert_isSome {age : Option ℚ} (h : ∀ x ∈ age, th.routerHeartbeatSpofS < x) :
    ∃ a, routerSpofAlert th age = some a := by
  unfold routerSpofAlert
  cases age with
  | none => exact ⟨_, rfl⟩
  | some x =>
    simp only []
    rw [if_neg (not_le.mpr (h x rfl))]
    exact ⟨_, rfl⟩

theorem flatAlert_eq_some {dep : DeploymentHealth} {a : FleetAlert}
    (h : flatAndUnmonitoredAlert th dep = some a) :
    a.dedupeKey = Condition.key (.flat dep.accountId dep.deploymentId) ∧
      dep.status = "failed" ∧ dep.respawnedSuccessfully = false ∧
      ∀ age ∈ dep.lastHeartbeatAgeS, th.staleDeploymentHeartbeatS < age := by
  unfold flatAndUnmonitoredAlert at h
  split at h
  · cases h
  · rename_i hstatus
    split at h
    · cases h
    · rename_i hrespawned
      split at h
      · cases h
      · rename_i hage
        refine ⟨by rw [← Option.some.inj h]; rfl, not_not.mp hstatus, by simpa using hrespawned, ?_⟩
        intro age hmem
        by_contra hle
        exact hage ⟨age, hmem, not_lt.mp hle⟩

theorem flatAlert_isSome {dep : DeploymentHealth} (hstatus : dep.status = "failed")
    (hrespawned : dep.respawnedSuccessfully = false)
    (hage : ∀ age ∈ dep.lastHeartbeatAgeS, th.staleDeploymentHeartbeatS < age) :
    ∃ a, flatAndUnmonitoredAlert th dep = some a := by
  unfold flatAndUnmonitoredAlert
  rw [if_neg (not_not.mpr hstatus), if_neg (by rw [hrespawned]; decide), if_neg]
  · exact ⟨_, rfl⟩
  · rintro ⟨age, hmem, hle⟩
    exact absurd (hage age hmem) (not_lt.mpr hle)

/-- **The detector.**  The keys of the alerts are those of the conditions that hold. -/
theorem mem_detect_iff :
    c.key ∈ (detectFleetAlerts th snapshot).map FleetAlert.dedupeKey ↔ snapshot.Holds th c := by
  rw [List.mem_map]
  constructor
  · rintro ⟨a, ha, hkey⟩
    rcases List.mem_append.mp ha with ha | ha
    · rcases List.mem_append.mp ha with ha | ha
      · obtain ⟨hrouter, hage⟩ := routerSpofAlert_eq_some (Option.mem_toList.mp ha)
        obtain rfl := Condition.key_inj (hkey.symm.trans hrouter)
        exact hage
      · obtain ⟨dep, hdep, halert⟩ := List.mem_filterMap.mp ha
        obtain ⟨hflat, hstatus, hrespawned, hage⟩ := flatAlert_eq_some halert
        obtain rfl := Condition.key_inj (hkey.symm.trans hflat)
        exact ⟨dep, hdep, rfl, rfl, hstatus, hrespawned, hage⟩
    · obtain ⟨accountId, hmem, rfl⟩ := List.mem_map.mp ha
      obtain rfl : c = .noConsumer accountId := Condition.key_inj hkey.symm
      obtain ⟨hactive, hmissing⟩ := List.mem_filter.mp hmem
      simp only [Bool.not_eq_true', Bool.or_eq_false_iff, decide_eq_false_iff_not] at hmissing
      exact ⟨hactive, hmissing⟩
  · intro hholds
    cases c with
    | routerSilent =>
      obtain ⟨a, ha⟩ := routerSpofAlert_isSome hholds
      refine ⟨a, ?_, (routerSpofAlert_eq_some ha).1⟩
      exact List.mem_append_left _ (List.mem_append_left _ (Option.mem_toList.mpr ha))
    | flat accountId deploymentId =>
      obtain ⟨dep, hdep, rfl, rfl, hstatus, hrespawned, hage⟩ := hholds
      obtain ⟨a, ha⟩ := flatAlert_isSome hstatus hrespawned hage
      refine ⟨a, ?_, (flatAlert_eq_some ha).1⟩
      exact List.mem_append_left _
        (List.mem_append_right _ (List.mem_filterMap.mpr ⟨dep, hdep, ha⟩))
    | noConsumer accountId =>
      obtain ⟨hactive, hne, hmissing⟩ := hholds
      refine ⟨_, List.mem_append_right _ (List.mem_map_of_mem (List.mem_filter.mpr ⟨hactive, ?_⟩)),
        rfl⟩
      simp [hne, hmissing]

end Detector

/-! ### The deduper -/

/-- `_last_sent`: the last page of each key. -/
abbrev LastSent := Dict (AlertKind × String) ℚ

/-- The body of the loop in `filter_and_record`. -/
def filterStep (now : ℚ) (r : List FleetAlert × LastSent) (alert : FleetAlert) :
    List FleetAlert × LastSent :=
  match r.2.get alert.dedupeKey with
  | some last =>
    if now - last < th.cooldownS then r
    else (r.1 ++ [alert], r.2.set alert.dedupeKey now)
  | none => (r.1 ++ [alert], r.2.set alert.dedupeKey now)

/-- `FleetAlertDeduper.filter_and_record`. -/
def filterAndRecord (lastSent : LastSent) (now : ℚ) (detected : List FleetAlert) :
    List FleetAlert × LastSent :=
  let activeKeys := detected.map FleetAlert.dedupeKey
  detected.foldl (filterStep th now) ([], lastSent.filter fun p => p.1 ∈ activeKeys)

/-- `evaluate_and_alert_fleet` on one tick: what is sent, and `_last_sent` from then on. -/
def evaluateAndAlertFleet (lastSent : LastSent) (tick : ℚ × FleetHealthSnapshot) :
    List FleetAlert × LastSent :=
  filterAndRecord th lastSent tick.1 (detectFleetAlerts th tick.2)

/-- `_last_sent` after some ticks of `_fleet_alert_loop`, which has one deduper. -/
def deduperAfter (ticks : List (ℚ × FleetHealthSnapshot)) : LastSent :=
  ticks.foldl (fun lastSent tick => (evaluateAndAlertFleet th lastSent tick).2) []

/-- What the `n`-th tick sends. -/
def pages (ticks : List (ℚ × FleetHealthSnapshot)) (n : ℕ) : List FleetAlert :=
  match ticks[n]? with
  | some tick => (evaluateAndAlertFleet th (deduperAfter th (ticks.take n)) tick).1
  | none => []

section Deduper

variable {th} {now : ℚ} {k : AlertKind × String} {lastSent : LastSent}
  {detected sent : List FleetAlert} {ticks : List (ℚ × FleetHealthSnapshot)} {n : ℕ}
  {c : Condition}

theorem get_filter {p : AlertKind × String → Bool} :
    Dict.get (lastSent.filter fun q => p q.1) k = if p k then Dict.get lastSent k else none := by
  induction lastSent with
  | nil => simp [Dict.get]
  | cons q rest ih =>
    obtain ⟨j, t⟩ := q
    rw [List.filter_cons]
    by_cases hj : j = k
    · subst hj
      cases hp : p j with
      | true => simp [Dict.get]
      | false => simp [hp, ih]
    · cases hp : p j with
      | true => simp [Dict.get, hj, ih]
      | false => simp [Dict.get, hj, ih]

/-- The loop, from any record: a key that comes is sent once, unless its last page is recent. -/
theorem foldl_filterStep (hsent : ∀ a ∈ sent, Dict.get lastSent a.dedupeKey = some now)
    (hnodup : (sent.map FleetAlert.dedupeKey).Nodup) :
    let r := detected.foldl (filterStep th now) (sent, lastSent)
    (r.1.map FleetAlert.dedupeKey).Nodup ∧
    (∀ a ∈ r.1, Dict.get r.2 a.dedupeKey = some now) ∧
    ∀ k,
      (k ∈ r.1.map FleetAlert.dedupeKey ↔ k ∈ sent.map FleetAlert.dedupeKey ∨
        (k ∈ detected.map FleetAlert.dedupeKey ∧
          ∀ t ∈ Dict.get lastSent k, ¬now - t < th.cooldownS)) ∧
      Dict.get r.2 k = if k ∈ detected.map FleetAlert.dedupeKey ∧
          ∀ t ∈ Dict.get lastSent k, ¬now - t < th.cooldownS then some now
        else Dict.get lastSent k := by
  induction detected generalizing sent lastSent with
  | nil => exact ⟨hnodup, hsent, fun k => by simp⟩
  | cons alert rest ih =>
    simp only [List.foldl_cons]
    by_cases hrecent : ∃ t ∈ Dict.get lastSent alert.dedupeKey, now - t < th.cooldownS
    · -- a page for the key is recent
      have hstep : filterStep th now (sent, lastSent) alert = (sent, lastSent) := by
        obtain ⟨t, ht, hlt⟩ := hrecent
        simp only [filterStep, Option.mem_def.mp ht, if_pos hlt]
      rw [hstep]
      obtain ⟨hn, hnow, hkeys⟩ := ih hsent hnodup
      refine ⟨hn, hnow, fun k => ?_⟩
      have hsame : (k ∈ (alert :: rest).map FleetAlert.dedupeKey ∧
            ∀ t ∈ Dict.get lastSent k, ¬now - t < th.cooldownS) ↔
          (k ∈ rest.map FleetAlert.dedupeKey ∧
            ∀ t ∈ Dict.get lastSent k, ¬now - t < th.cooldownS) := by
        rw [List.map_cons, List.mem_cons]
        refine and_congr_left fun hold => or_iff_right ?_
        rintro rfl
        obtain ⟨t, ht, hlt⟩ := hrecent
        exact hold t ht hlt
      simp only [hsame]
      exact hkeys k
    · have hold : ∀ t ∈ Dict.get lastSent alert.dedupeKey, ¬now - t < th.cooldownS :=
        fun t ht hlt => hrecent ⟨t, ht, hlt⟩
      have hstep : filterStep th now (sent, lastSent) alert =
          (sent ++ [alert], lastSent.set alert.dedupeKey now) := by
        unfold filterStep
        cases hget : Dict.get lastSent alert.dedupeKey with
        | none => rfl
        | some t => exact if_neg (hold t hget)
      rw [hstep]
      -- a page of this tick is recent, so the key has not been sent on it
      have hfresh : alert.dedupeKey ∉ sent.map FleetAlert.dedupeKey := by
        intro hmem
        obtain ⟨a, ha, hkey⟩ := List.mem_map.mp hmem
        have hnow := hsent a ha
        rw [hkey] at hnow
        exact hold now hnow (by rw [sub_self]; exact th.cooldown_pos)
      obtain ⟨hn, hnow, hkeys⟩ := @ih (lastSent.set alert.dedupeKey now) (sent ++ [alert]) (by
          intro a ha
          rw [Dict.get_set]
          rcases List.mem_append.mp ha with ha | ha
          · rw [hsent a ha, ite_self]
          · rw [List.mem_singleton.mp ha, if_pos rfl])
        (by
          rw [List.map_append, List.nodup_append]
          refine ⟨hnodup, List.nodup_singleton _, ?_⟩
          rintro j hj j' hj' rfl
          rw [List.map_singleton, List.mem_singleton] at hj'
          exact hfresh (hj' ▸ hj))
      refine ⟨hn, hnow, fun k => ?_⟩
      obtain ⟨hmem, hget⟩ := hkeys k
      rw [Dict.get_set] at hmem hget
      by_cases hk : alert.dedupeKey = k
      · subst hk
        have hrec : ¬∀ t ∈ some now, ¬now - t < th.cooldownS := fun hall =>
          hall now rfl (by rw [sub_self]; exact th.cooldown_pos)
        rw [if_pos rfl] at hmem hget
        constructor
        · rw [hmem, List.map_append]
          exact iff_of_true (Or.inl (by simp)) (Or.inr ⟨List.mem_cons_self, hold⟩)
        · rw [hget, if_neg fun hand => hrec hand.2, if_pos ⟨List.mem_cons_self, hold⟩]
      · rw [if_neg hk] at hmem hget
        constructor
        · rw [hmem]
          simp [Ne.symm hk]
        · rw [hget]
          simp [Ne.symm hk]

/-- Every key of the deduper is a latch with a reminder. -/
theorem filterAndRecord_next (k : AlertKind × String) :
    let r := filterAndRecord th lastSent now detected
    let active := decide (k ∈ detected.map FleetAlert.dedupeKey)
    (k ∈ r.1.map FleetAlert.dedupeKey ↔
      (Reminder.next th.cooldownS now active (Dict.get lastSent k)).1 = true) ∧
    Dict.get r.2 k = (Reminder.next th.cooldownS now active (Dict.get lastSent k)).2 ∧
    (r.1.map FleetAlert.dedupeKey).Nodup := by
  obtain ⟨hnodup, _, hkeys⟩ := @foldl_filterStep th now
    (lastSent.filter fun p => p.1 ∈ detected.map FleetAlert.dedupeKey) detected []
    (fun a ha => absurd ha List.not_mem_nil) List.nodup_nil
  obtain ⟨hmem, hget⟩ := hkeys k
  -- what is not wrong any more has been forgotten
  have hkept : Dict.get (lastSent.filter fun p => p.1 ∈ detected.map FleetAlert.dedupeKey) k =
      if k ∈ detected.map FleetAlert.dedupeKey then Dict.get lastSent k else none := by
    rw [@get_filter k lastSent fun j => decide (j ∈ detected.map FleetAlert.dedupeKey)]
    simp only [decide_eq_true_eq]
  rw [hkept] at hmem hget
  refine ⟨hmem.trans ?_, hget.trans ?_, hnodup⟩
  · rw [Reminder.next_fst]
    by_cases hactive : k ∈ detected.map FleetAlert.dedupeKey
    · simp [hactive]
    · simp [hactive]
  · rw [Reminder.next_snd]
    by_cases hactive : k ∈ detected.map FleetAlert.dedupeKey
    · simp only [hactive, decide_true, if_true, true_and, Bool.true_eq_false, if_false,
        Reminder.next_fst]
    · simp [hactive]

/-- The ticks as one key sees them. -/
def keyTicks (th : Thresholds) (k : AlertKind × String)
    (ticks : List (ℚ × FleetHealthSnapshot)) : List (ℚ × Bool) :=
  ticks.map fun tick =>
    (tick.1, decide (k ∈ (detectFleetAlerts th tick.2).map FleetAlert.dedupeKey))

theorem get_deduperAfter (k : AlertKind × String) :
    Dict.get (deduperAfter th ticks) k = Reminder.state th.cooldownS (keyTicks th k ticks) := by
  induction ticks using List.reverseRecOn with
  | nil => rfl
  | append_singleton ticks tick ih =>
    have hstep : deduperAfter th (ticks ++ [tick]) =
        (evaluateAndAlertFleet th (deduperAfter th ticks) tick).2 := by
      rw [deduperAfter, List.foldl_append]
      rfl
    have hticks : keyTicks th k (ticks ++ [tick]) = keyTicks th k ticks ++ keyTicks th k [tick] :=
      List.map_append
    rw [hstep, hticks, Reminder.state, List.foldl_append]
    refine (filterAndRecord_next k).2.1.trans ?_
    rw [ih]
    rfl

/-- What a tick sends is what the latches of the keys report. -/
theorem mem_pages_iff (k : AlertKind × String) :
    k ∈ (pages th ticks n).map FleetAlert.dedupeKey ↔
      Reminder.sends th.cooldownS (keyTicks th k ticks) n = true := by
  unfold pages Reminder.sends keyTicks
  rw [List.getElem?_map]
  cases htick : ticks[n]? with
  | none => simp
  | some tick =>
    simp only [Option.map_some]
    rw [← List.map_take]
    refine (filterAndRecord_next k).1.trans ?_
    rw [get_deduperAfter]
    rfl

/-- A condition is paged once on a tick. -/
theorem pages_nodup : ((pages th ticks n).map FleetAlert.dedupeKey).Nodup := by
  unfold pages
  cases ticks[n]? with
  | none => exact List.nodup_nil
  | some tick => exact (filterAndRecord_next (.routerSpof, "")).2.2

/-- The deduper remembers only what was wrong on the last tick. -/
theorem mem_keys_deduperAfter {tick : ℚ × FleetHealthSnapshot}
    (h : c.key ∈ Dict.keys (deduperAfter th (ticks ++ [tick]))) : tick.2.Holds th c := by
  have hsome : Dict.get (deduperAfter th (ticks ++ [tick])) c.key ≠ none :=
    fun hnone => Dict.get_eq_none.mp hnone h
  rw [get_deduperAfter] at hsome
  by_contra hclear
  apply hsome
  have hinactive : decide (c.key ∈ (detectFleetAlerts th tick.2).map FleetAlert.dedupeKey) =
      false := decide_eq_false fun hmem => hclear (mem_detect_iff.mp hmem)
  unfold keyTicks
  rw [List.map_append, Reminder.state, List.foldl_append]
  simp only [List.map_cons, List.map_nil, List.foldl_cons, List.foldl_nil, hinactive]
  rfl

/-- The condition holds on every tick from `m` up to `n`. -/
def HoldsFrom (th : Thresholds) (ticks : List (ℚ × FleetHealthSnapshot)) (c : Condition)
    (m n : ℕ) : Prop :=
  ∀ i, m ≤ i → i < n → ∃ tick, ticks[i]? = some tick ∧ tick.2.Holds th c

theorem activeFrom_iff {m : ℕ} :
    Reminder.ActiveFrom (keyTicks th c.key ticks) m n ↔ HoldsFrom th ticks c m n := by
  unfold Reminder.ActiveFrom HoldsFrom keyTicks
  refine forall_congr' fun i => forall_congr' fun _ => forall_congr' fun _ => ?_
  rw [List.getElem?_map]
  cases ticks[i]? with
  | none => simp
  | some tick => simp [mem_detect_iff.symm]

end Deduper

/-- **Which conditions are paged when.**  The clock does not go back.  On a tick of any run a
    condition is paged exactly if it holds then, and every page of the same occurrence, that is
    since when it has held on all ticks, is a cooldown old.  So a condition is paged at once where
    it appears, and anew where it comes back. -/
theorem pages_iff {th : Thresholds} {ticks : List (ℚ × FleetHealthSnapshot)} {n : ℕ} {now : ℚ}
    {snapshot : FleetHealthSnapshot} (c : Condition)
    (hsorted : ticks.Pairwise fun p q => p.1 ≤ q.1) (htick : ticks[n]? = some (now, snapshot)) :
    c.key ∈ (pages th ticks n).map FleetAlert.dedupeKey ↔
      snapshot.Holds th c ∧
        ∀ m < n, ∀ t earlier, ticks[m]? = some (t, earlier) → HoldsFrom th ticks c m n →
          c.key ∈ (pages th ticks m).map FleetAlert.dedupeKey → th.cooldownS ≤ now - t := by
  have hkey : (keyTicks th c.key ticks)[n]? =
      some (now, decide (c.key ∈ (detectFleetAlerts th snapshot).map FleetAlert.dedupeKey)) := by
    rw [keyTicks, List.getElem?_map, htick]
    rfl
  have hkeys : (keyTicks th c.key ticks).Pairwise fun p q => p.1 ≤ q.1 :=
    List.pairwise_map.mpr (hsorted.imp fun hle => hle)
  rw [mem_pages_iff, Reminder.sends_iff hkeys hkey, decide_eq_true_iff, mem_detect_iff]
  apply and_congr_right
  intro _
  constructor
  · intro hold m hm t earlier ht hfrom hpage
    have hm_key : (keyTicks th c.key ticks)[m]? =
        some (t, decide (c.key ∈ (detectFleetAlerts th earlier).map FleetAlert.dedupeKey)) := by
      rw [keyTicks, List.getElem?_map, ht]
      rfl
    exact hold m hm t _ hm_key (activeFrom_iff.mpr hfrom) ((mem_pages_iff _).mp hpage)
  · intro hold m hm t a ht hfrom hsends
    rw [keyTicks, List.getElem?_map] at ht
    obtain ⟨⟨t', earlier⟩, hget, heq⟩ := Option.map_eq_some_iff.mp ht
    obtain rfl : t' = t := (Prod.mk.inj heq).1
    exact hold m hm t' earlier hget (activeFrom_iff.mp hfrom) ((mem_pages_iff _).mpr hsends)

/-- A fleet without a router heartbeat, watched for half an hour. -/
def silentRouter : List (ℚ × FleetHealthSnapshot) :=
  [(0, ⟨none, [], [], []⟩), (10, ⟨some 35, [], [], []⟩), (1800, ⟨some 1825, [], [], []⟩)]

theorem pages_silentRouter :
    (Condition.key .routerSilent ∈ (pages .defaults silentRouter 1).map FleetAlert.dedupeKey ↔
      FleetHealthSnapshot.Holds .defaults ⟨some 35, [], [], []⟩ .routerSilent ∧
        ∀ m < 1, ∀ t earlier, silentRouter[m]? = some (t, earlier) →
          HoldsFrom .defaults silentRouter .routerSilent m 1 →
          Condition.key .routerSilent ∈ (pages .defaults silentRouter m).map FleetAlert.dedupeKey →
          1800 ≤ (10 : ℚ) - t) :=
  pages_iff .routerSilent (by simp only [silentRouter]; norm_num) rfl

example : (List.range 3).map (fun n => (pages .defaults silentRouter n).length) = [1, 0, 1] := by
  decide +kernel

end Msai.Supervisor.FleetAlerts
