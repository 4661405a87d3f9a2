import Mathlib.Logic.Function.Basic
import Mathlib.Data.List.Basic

namespace Msai.Live.ResumeScript

/-!
# `RESUME_CLEAR_LUA` by its positions (`core/halt_keys.py`)

The script that clears the fleet halt, as it walks `KEYS` and `ARGV`: three counts, three loops
that share one index, and a loop that deletes what is left.

* `resumeClearLua` — the script on the two argument lists;
* `clearBySegments` — what it is for: check three lists of keys, then delete a fourth one;
* `resumeClearLua_eq` — on lists that are laid out as the handler does, of any lengths, the two are
  the same;
* `clearBySegments_spec` — all checks hold and `OK`, or another answer and nothing is deleted.

`HaltKeys.resumeClearLua` is the clear over structured keys; here keys and values are the texts
that go to Redis.
-/

/-! ### The keys -/

/-- `fleet_halt_key()`. -/
def fleetHaltKey : String := "msai:risk:halt"

/-- `halt_cause_key("fleet")`. -/
def fleetHaltCauseKey : String := fleetHaltKey ++ ":cause"

/-- `data_freshness_manifest_key`; an empty id is a `ValueError`. -/
def dataFreshnessManifestKey (deploymentId : String) : Option String :=
  if deploymentId = "" then none
  else some ("msai:data:freshness:" ++ deploymentId ++ ":manifest")

/-- `data_freshness_key`. -/
def dataFreshnessKey (deploymentId dataset nativeBarType : String) : Option String :=
  if deploymentId = "" ∨ dataset = "" ∨ nativeBarType = "" then none
  else some ("msai:data:freshness:" ++ deploymentId ++ ":" ++ dataset ++ ":" ++ nativeBarType)

/-- `VERDICT_KEY_SUFFIX`. -/
def verdictKeySuffix : String := ":verdict"

/-- `reconciled_key`. -/
def reconciledKey (deploymentId : String) : Option String :=
  if deploymentId = "" then none else some ("msai:live:reconciled:" ++ deploymentId)

/-! ### The store -/

/-- What a key holds. -/
inductive Stored
  | text (s : String)
  /-- A string that is not UTF-8. -/
  | binary (bytes : List UInt8)
  /-- A list, a hash, a stream and so on. -/
  | otherType
deriving DecidableEq, Repr

/-- The database. -/
abbrev Store := String → Option Stored

/-- `DEL`. -/
def Store.del (r : Store) (k : String) : Store := Function.update r k none

/-- `DEL` of several keys, one after the other. -/
def Store.delAll (r : Store) (ks : List String) : Store := ks.foldl Store.del r

theorem Store.delAll_apply {ks : List String} {r : Store} {k : String} :
    r.delAll ks k = if k ∈ ks then none else r k := by
  unfold Store.delAll
  induction ks generalizing r with
  | nil => rfl
  | cons k' ks ih =>
    rw [List.foldl_cons, ih]
    by_cases hk : k = k'
    · subst hk
      simp [Store.del]
    · simp [Store.del, hk]

/-! ### The script -/

/-- How a script ends. -/
inductive Reply
  | text (s : String)
  /-- A Lua error, or one of a Redis command: the client raises. -/
  | error
deriving DecidableEq, Repr

/-- `T[i]` of a Lua array. -/
def luaIndex (xs : List String) (i : ℕ) : Option String := if i = 0 then none else xs[i - 1]?

/-- `tonumber` of a decimal numeral; the other numerals Lua reads are left out. -/
def tonumber (s : Option String) : Option ℕ :=
  s.bind fun s =>
    if s ≠ "" ∧ s.toList.all Char.isDigit then some (Nat.ofDigitChars 10 s.toList 0) else none

/-- `redis.call('get', key)`. -/
def redisGet (r : Store) (key : Option String) : Except Reply (Option Stored) :=
  match key with
  | none => .error .error
  | some k => if r k = some .otherType then .error .error else .ok (r k)

/-- `reason .. key`. -/
def concat (reason : String) (key : Option String) : Reply :=
  match key with
  | none => .error
  | some k => .text (reason ++ k)

/-- The body of the first loop. -/
def checkManifest (r : Store) (key expected : Option String) : Except Reply Unit := do
  let current ← redisGet r key
  if current = none then throw (concat "MANIFEST_MISSING:" key)
  if current ≠ expected.map .text then throw (concat "MANIFEST_CHANGED:" key)

/-- The body of the second loop. -/
def checkVerdict (r : Store) (key : Option String) : Except Reply Unit := do
  let v ← redisGet r key
  if v = none then throw (concat "VERDICT_MISSING:" key)
  if v ≠ some (.text "warm") then throw (concat "VERDICT_NOT_WARM:" key)

/-- The body of the third loop. -/
def checkReconciled (r : Store) (key : Option String) : Except Reply Unit :=
  match key with
  | none => throw .error
  | some k => if (r k).isNone then throw (concat "RECONCILED_MISSING:" key) else pure ()

/-- `for i = …, … do idx = idx + 1 … end` with `remaining` rounds to go: the body sees `i` and the
    new `idx`. -/
def forLoop (body : ℕ → ℕ → Except Reply Unit) : (remaining i idx : ℕ) → Except Reply ℕ
  | 0, _, idx => pure idx
  | remaining + 1, i, idx => do
    body i (idx + 1)
    forLoop body remaining (i + 1) (idx + 1)

/-- `for i = 1, n do idx = idx + 1 … end`; a limit that is no number is an error. -/
def forTo (n : Option ℕ) (body : ℕ → ℕ → Except Reply Unit) (idx : ℕ) : Except Reply ℕ :=
  match n with
  | none => throw .error
  | some n => forLoop body n 1 idx

/-- The three loops that check; the result is where `idx` stands. -/
def resumeChecks (keys argv : List String) (r : Store) : Except Reply ℕ := do
  let nManifest := tonumber (luaIndex argv 1)
  let nVerdict := tonumber (luaIndex argv 2)
  let nReconciled := tonumber (luaIndex argv 3)
  let idx ← forTo nManifest
    (fun i idx => checkManifest r (luaIndex keys idx) (luaIndex argv (3 + i))) 0
  let idx ← forTo nVerdict (fun _ idx => checkVerdict r (luaIndex keys idx)) idx
  forTo nReconciled (fun _ idx => checkReconciled r (luaIndex keys idx)) idx

/-- `for i = idx + 1, #KEYS do redis.call('del', KEYS[i]) end`. -/
def deleteFrom (keys : List String) (idx : ℕ) (r : Store) : Store :=
  r.delAll ((List.range' (idx + 1) (keys.length - idx)).filterMap (luaIndex keys))

/-- `RESUME_CLEAR_LUA`. -/
def resumeClearLua (keys argv : List String) (r : Store) : Reply × Store :=
  match resumeChecks keys argv r with
  | .error reply => (reply, r)
  | .ok idx => (.text "OK", deleteFrom keys idx r)

/-! ### What it is for -/

/-- Every manifest key still has its expected value, every verdict is `warm` and every
    reconciliation marker is there; the first that is not answers. -/
def checkSegments (manifests : List (String × String)) (verdicts reconciled : List String)
    (r : Store) : Except Reply Unit := do
  manifests.forM fun m => checkManifest r (some m.1) (some m.2)
  verdicts.forM fun k => checkVerdict r (some k)
  reconciled.forM fun k => checkReconciled r (some k)

/-- Check, then delete. -/
def clearBySegments (manifests : List (String × String))
    (verdicts reconciled delete : List String) (r : Store) : Reply × Store :=
  match checkSegments manifests verdicts reconciled r with
  | .error reply => (reply, r)
  | .ok () => (.text "OK", r.delAll delete)

/-- `lua_keys` of the handler. -/
def layoutKeys (manifests : List (String × String)) (verdicts reconciled delete : List String) :
    List String :=
  manifests.map Prod.fst ++ verdicts ++ reconciled ++ delete

/-- `lua_argv` of the handler. -/
def layoutArgv (manifests : List (String × String)) (verdicts reconciled : List String) :
    List String :=
  [toString manifests.length, toString verdicts.length, toString reconciled.length]
    ++ manifests.map Prod.snd

/-! ### The positions -/

theorem tonumber_toString (n : ℕ) : tonumber (some (toString n)) = some n := by
  have hlist : (toString n).toList = Nat.toDigits 10 n := by
    rw [Nat.toString_eq_repr, Nat.toList_repr]
  have hne : toString n ≠ "" := by
    intro h
    rw [h] at hlist
    exact Nat.toDigits_ne_nil hlist.symm
  have hdigits : (toString n).toList.all Char.isDigit = true := by
    rw [List.all_eq_true, hlist]
    intro c hc
    exact Nat.isDigit_of_mem_toDigits (by omega) (by omega) hc
  show (if toString n ≠ "" ∧ (toString n).toList.all Char.isDigit then
    some (Nat.ofDigitChars 10 (toString n).toList 0) else none) = some n
  rw [if_pos ⟨hne, hdigits⟩, hlist, Nat.ofDigitChars_ten_toDigits]

/-- `KEYS[idx]` behind a prefix. -/
theorem luaIndex_append (pre seg post : List String) {j : ℕ} (hj : j < seg.length) :
    luaIndex (pre ++ seg ++ post) (pre.length + j + 1) = seg[j]? := by
  unfold luaIndex
  rw [if_neg (by omega), Nat.add_sub_cancel, List.append_assoc,
    List.getElem?_append_right (by omega), Nat.add_sub_cancel_left, List.getElem?_append_left hj]

/-- A loop whose bodies check the elements of a list in turn. -/
theorem forLoop_eq {α : Type} (body : ℕ → ℕ → Except Reply Unit) (check : α → Except Reply Unit)
    (seg : List α) (i idx : ℕ)
    (hbody : ∀ j a, seg[j]? = some a → body (i + j) (idx + j + 1) = check a) :
    forLoop body seg.length i idx = (do seg.forM check; pure (idx + seg.length)) := by
  induction seg generalizing i idx with
  | nil => rfl
  | cons a seg ih =>
    have hhead : body i (idx + 1) = check a := hbody 0 a rfl
    have htail := ih (i + 1) (idx + 1) fun j b hb => by
      rw [show i + 1 + j = i + (j + 1) by omega, show idx + 1 + j + 1 = idx + (j + 1) + 1 by omega]
      exact hbody (j + 1) b hb
    show (body i (idx + 1) >>= fun _ => forLoop body seg.length (i + 1) (idx + 1)) = _
    rw [hhead, htail, List.length_cons,
      show idx + 1 + seg.length = idx + (seg.length + 1) by omega]
    show _ = ((check a >>= fun _ => seg.forM check) >>= fun _ => pure (idx + (seg.length + 1)))
    rw [bind_assoc]

/-- A loop that reads `KEYS` at its index only. -/
theorem forTo_keys (pre seg post : List String) (check : Option String → Except Reply Unit) :
    forTo (some seg.length) (fun _ idx => check (luaIndex (pre ++ seg ++ post) idx)) pre.length
      = (do seg.forM (fun k => check (some k)); pure (pre.length + seg.length)) := by
  refine forLoop_eq _ _ _ _ _ fun j k hk => ?_
  rw [luaIndex_append pre seg post (List.getElem?_eq_some_iff.mp hk).1, hk]

/-- The first loop reads the `i`-th manifest key and the `i`-th expected value. -/
theorem forTo_manifests (manifests : List (String × String)) (counts post : List String)
    (check : Option String → Option String → Except Reply Unit) (hcounts : counts.length = 3) :
    forTo (some manifests.length)
        (fun i idx => check (luaIndex (manifests.map Prod.fst ++ post) idx)
          (luaIndex (counts ++ manifests.map Prod.snd) (3 + i))) 0
      = (do manifests.forM (fun m => check (some m.1) (some m.2)); pure manifests.length) := by
  have h := forLoop_eq
    (fun i idx => check (luaIndex (manifests.map Prod.fst ++ post) idx)
      (luaIndex (counts ++ manifests.map Prod.snd) (3 + i)))
    (fun m => check (some m.1) (some m.2)) manifests 1 0 fun j m hm => by
    have hlt : j < manifests.length := (List.getElem?_eq_some_iff.mp hm).1
    have hkey := luaIndex_append [] (manifests.map Prod.fst) post
      (j := j) (by rwa [List.length_map])
    have hval := luaIndex_append counts (manifests.map Prod.snd) []
      (j := j) (by rwa [List.length_map])
    rw [List.getElem?_map, hm, List.nil_append, List.length_nil] at hkey
    rw [List.getElem?_map, hm, List.append_nil, hcounts] at hval
    rw [hkey, show 3 + (1 + j) = 3 + j + 1 by omega, hval]
    rfl
  rw [Nat.zero_add] at h
  exact h

/-- The positions behind a prefix hold the rest. -/
theorem filterMap_luaIndex (pre seg : List String) :
    (List.range' (pre.length + 1) seg.length).filterMap (luaIndex (pre ++ seg)) = seg := by
  induction seg generalizing pre with
  | nil => rfl
  | cons k seg ih =>
    have hhead : luaIndex (pre ++ k :: seg) (pre.length + 1) = some k := by
      have h := luaIndex_append pre [k] seg Nat.zero_lt_one
      rwa [List.append_assoc] at h
    have htail := ih (pre ++ [k])
    rw [List.length_append, List.append_assoc] at htail
    rw [List.length_cons, List.range'_succ, List.filterMap_cons_some hhead]
    exact congrArg (k :: ·) htail

/-- What is left behind `idx` is deleted. -/
theorem deleteFrom_append {pre delete : List String} {r : Store} :
    deleteFrom (pre ++ delete) pre.length r = r.delAll delete := by
  unfold deleteFrom
  rw [List.length_append, Nat.add_sub_cancel_left, filterMap_luaIndex]

/-- On the handler's layout the three loops check the three segments, and the index ends in front
    of the last one. -/
theorem resumeChecks_layout {manifests : List (String × String)}
    {verdicts reconciled delete : List String} {r : Store} :
    resumeChecks (layoutKeys manifests verdicts reconciled delete)
        (layoutArgv manifests verdicts reconciled) r
      = (do checkSegments manifests verdicts reconciled r
            pure (manifests.length + verdicts.length + reconciled.length)) := by
  have hmanifests := forTo_manifests manifests
    [toString manifests.length, toString verdicts.length, toString reconciled.length]
    (verdicts ++ reconciled ++ delete) (checkManifest r) rfl
  have hverdicts := forTo_keys (manifests.map Prod.fst) verdicts (reconciled ++ delete)
    (checkVerdict r)
  have hreconciled := forTo_keys (manifests.map Prod.fst ++ verdicts) reconciled delete
    (checkReconciled r)
  simp only [← List.append_assoc] at hmanifests hverdicts
  rw [List.length_map] at hverdicts
  rw [List.length_append, List.length_map] at hreconciled
  have hn (n : ℕ) : tonumber (some (toString n)) = some n := tonumber_toString n
  show (forTo (tonumber (some (toString manifests.length))) _ 0 >>= fun idx =>
    forTo (tonumber (some (toString verdicts.length))) _ idx >>= fun idx =>
      forTo (tonumber (some (toString reconciled.length))) _ idx) = _
  rw [hn, hn, hn]
  show (forTo (some manifests.length) (fun i idx => checkManifest r
      (luaIndex (manifests.map Prod.fst ++ verdicts ++ reconciled ++ delete) idx)
      (luaIndex ([toString manifests.length, toString verdicts.length, toString reconciled.length]
        ++ manifests.map Prod.snd) (3 + i))) 0 >>= _) = _
  rw [hmanifests]
  simp only [bind_assoc, pure_bind, checkSegments, layoutKeys]
  rw [hverdicts]
  simp only [bind_assoc, pure_bind]
  rw [hreconciled]

/-- **The positions are right.**  For lists of every length, the script on the handler's layout
    compares each manifest key with its own expected value, checks the verdict and the
    reconciled keys as such, and deletes just the `delete` keys. -/
theorem resumeClearLua_eq {manifests : List (String × String)}
    {verdicts reconciled delete : List String} {r : Store} :
    resumeClearLua (layoutKeys manifests verdicts reconciled delete)
        (layoutArgv manifests verdicts reconciled) r
      = clearBySegments manifests verdicts reconciled delete r := by
  unfold resumeClearLua clearBySegments
  rw [resumeChecks_layout]
  cases checkSegments manifests verdicts reconciled r with
  | error reply => rfl
  | ok _ =>
    have hlen : (manifests.map Prod.fst ++ verdicts ++ reconciled).length
        = manifests.length + verdicts.length + reconciled.length := by
      simp only [List.length_append, List.length_map]
    show (Reply.text "OK", deleteFrom _ (manifests.length + verdicts.length + reconciled.length) r)
      = _
    rw [← hlen, layoutKeys, deleteFrom_append]

/-! ### All or nothing -/

/-- The step passes and `P` holds, or it leaves the script with an answer other than `OK`. -/
def Decides (P : Prop) (x : Except Reply Unit) : Prop :=
  (P ∧ x = .ok ()) ∨ ∃ reply, reply ≠ .text "OK" ∧ x = .error reply

theorem concat_ne_ok {reason k : String} (h : 2 < reason.length) :
    concat reason (some k) ≠ .text "OK" := by
  intro heq
  have hlen := congrArg String.length (Reply.text.inj heq)
  rw [String.length_append] at hlen
  have : "OK".length = 2 := by decide
  omega

/-- A read, and a comparison with the text that is wanted. -/
theorem redisGet_decides {r : Store} {k wanted : String} {missing other : Reply}
    (hmissing : missing ≠ .text "OK") (hother : other ≠ .text "OK") :
    Decides (r k = some (.text wanted)) (do
      let v ← redisGet r (some k)
      if v = none then throw missing
      if v ≠ some (.text wanted) then throw other) := by
  by_cases htype : r k = some .otherType
  · exact Or.inr ⟨.error, nofun, by simp [redisGet, htype, bind, Except.bind]⟩
  · by_cases hnone : r k = none
    · refine Or.inr ⟨missing, hmissing, ?_⟩
      simp [redisGet, hnone, bind, Except.bind, throw, throwThe, MonadExceptOf.throw]
    · by_cases heq : r k = some (.text wanted)
      · refine Or.inl ⟨heq, ?_⟩
        simp [redisGet, heq, bind, Except.bind, pure, Except.pure]
      · refine Or.inr ⟨other, hother, ?_⟩
        simp [redisGet, htype, hnone, heq, bind, Except.bind, throw, throwThe,
          MonadExceptOf.throw]

theorem checkManifest_decides (r : Store) (k expected : String) :
    Decides (r k = some (.text expected)) (checkManifest r (some k) (some expected)) :=
  redisGet_decides (concat_ne_ok (by decide)) (concat_ne_ok (by decide))

theorem checkVerdict_decides (r : Store) (k : String) :
    Decides (r k = some (.text "warm")) (checkVerdict r (some k)) :=
  redisGet_decides (concat_ne_ok (by decide)) (concat_ne_ok (by decide))

theorem checkReconciled_decides (r : Store) (k : String) :
    Decides ((r k).isSome = true) (checkReconciled r (some k)) := by
  have hmissing : concat "RECONCILED_MISSING:" (some k) ≠ .text "OK" := concat_ne_ok (by decide)
  show Decides _ (if (r k).isNone then throw (concat "RECONCILED_MISSING:" (some k)) else pure ())
  by_cases hnone : (r k).isNone = true
  · rw [if_pos hnone]
    exact Or.inr ⟨_, hmissing, rfl⟩
  · rw [if_neg hnone]
    exact Or.inl ⟨by simpa [Option.isSome_iff_ne_none] using hnone, rfl⟩

theorem Decides.bind {P Q : Prop} {x : Except Reply Unit} {f : Unit → Except Reply Unit}
    (hx : Decides P x) (hf : Decides Q (f ())) : Decides (P ∧ Q) (x >>= f) := by
  rcases hx with ⟨hP, rfl⟩ | ⟨reply, hreply, rfl⟩
  · rcases hf with ⟨hQ, hok⟩ | ⟨reply, hreply, herror⟩
    · exact Or.inl ⟨⟨hP, hQ⟩, hok⟩
    · exact Or.inr ⟨reply, hreply, herror⟩
  · exact Or.inr ⟨reply, hreply, rfl⟩

theorem Decides.forM {α : Type} {P : α → Prop} {check : α → Except Reply Unit} {seg : List α}
    (hcheck : ∀ a, Decides (P a) (check a)) : Decides (∀ a ∈ seg, P a) (seg.forM check) := by
  induction seg with
  | nil => exact Or.inl ⟨nofun, rfl⟩
  | cons a seg ih =>
    rw [List.forall_mem_cons]
    exact (hcheck a).bind ih

/-- What a clear has verified. -/
structure Verified (manifests : List (String × String)) (verdicts reconciled : List String)
    (r : Store) : Prop where
  manifests : ∀ m ∈ manifests, r m.1 = some (.text m.2)
  verdicts : ∀ k ∈ verdicts, r k = some (.text "warm")
  reconciled : ∀ k ∈ reconciled, (r k).isSome = true

/-- **Spec of the clear.**  Everything is verified and the `delete` keys are gone, or the answer
    is not `OK` and the store is as it was. -/
theorem clearBySegments_spec (manifests : List (String × String))
    (verdicts reconciled delete : List String) (r : Store) :
    (Verified manifests verdicts reconciled r ∧
      clearBySegments manifests verdicts reconciled delete r = (.text "OK", r.delAll delete)) ∨
    ∃ reply, reply ≠ .text "OK" ∧
      clearBySegments manifests verdicts reconciled delete r = (reply, r) := by
  have hall : Decides _ (checkSegments manifests verdicts reconciled r) :=
    (Decides.forM fun m : String × String => checkManifest_decides r m.1 m.2).bind
      ((Decides.forM fun k => checkVerdict_decides r k).bind
        (Decides.forM fun k => checkReconciled_decides r k))
  unfold clearBySegments
  rcases hall with ⟨⟨hm, hv, hr⟩, hok⟩ | ⟨reply, hreply, herror⟩
  · rw [hok]
    exact Or.inl ⟨⟨hm, hv, hr⟩, rfl⟩
  · rw [herror]
    exact Or.inr ⟨reply, hreply, rfl⟩

end Msai.Live.ResumeScript
