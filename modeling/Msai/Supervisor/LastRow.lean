import Msai.Supervisor.Fleet

namespace Msai.Supervisor

open Msai.Live Msai.Lib Msai.Lib.TransitionSystem

/-!
# The latest row and whoever is on it

Several results about one deployment need to know that the processes left over belong to the
latest row.  That is so as long as Phase A opens a slot only when nobody is left on an earlier
one.

* `fleetStep_rows` — what a step does to the node rows, and who may re-activate one;
* `Fleet.vacant` — no live child, and no spawn that may still start one;
* `LastRow` — live children, unstarted spawns and the active row are all at the latest row.
-/

variable {host : String} {policy : Option RestartPolicy} {s t : Fleet} {a : FleetLabel}

/-! ### The rows after a step -/

/-- **What a step does to the node rows**: nothing, one insert, or one write.  A self-write
    by primary key is one of a live child on its own row. -/
theorem fleetStep_rows (h : fleetStep host policy s a = some t) :
    t.db.rows = s.db.rows ∨
    (∃ req other, a = .reserve req other ∧ phaseAGate s.db req other = none ∧
      t.db.rows = s.db.rows ++ [reservedRow policy req s.db.dep]) ∨
    (∃ i w, s.db.write i w = some t.db ∧ (w.isUnguarded = true →
      ∃ pid act c, a = .child pid act ∧ s.children[pid]? = some c ∧ c.alive = true ∧
        c.rowId = i)) := by
  cases fleetStep_txn h with
  | none hdb => exact Or.inl (by rw [hdb])
  | supervisor i w hno hw =>
    refine Or.inr (Or.inr ⟨i, w, hw, fun hu => ?_⟩)
    rw [RowWrite.isChildWrite_of_isUnguarded hu] at hno
    cases hno
  | child pid act c w phase hc ha hout hw =>
    exact Or.inr (Or.inr ⟨c.rowId, w, hw, fun _ => ⟨pid, act, c, rfl, hc, ha, rfl⟩⟩)
  | phaseA req other o _ hA =>
    rcases phaseA_cases hA with ⟨hdb, _⟩ | ⟨_, hgate, _, hrows, _⟩
    · exact Or.inl (by rw [hdb])
    · exact Or.inr (Or.inl ⟨req, other, rfl, hgate, hrows⟩)
  | stop now res hstop =>
    rcases stopTxn_cases hstop with ⟨i, _, _, _, _, _, hw⟩ | ⟨_, _, hdb⟩ | ⟨_, _, hcase⟩
    · exact Or.inr (Or.inr ⟨i, _, hw, fun hu => by cases hu⟩)
    · exact Or.inl (by rw [hdb])
    · rcases hcase with ⟨_, hdb⟩ | ⟨_, _, hw⟩ | ⟨_, _, hdb⟩
      · exact Or.inl (by rw [hdb])
      · exact Or.inr (Or.inr ⟨_, _, hw, fun hu => by cases hu⟩)
      · refine Or.inl ?_
        rw [hdb, stopPreActive]
        split <;> rfl
  | apiStart now hdb | apiStatus st hst hdb => exact Or.inl (by rw [hdb]; rfl)

/-- Where an active row comes from. -/
theorem fleetStep_isActive {j : ℕ} {r' : NodeRow} (h : fleetStep host policy s a = some t)
    (hr' : t.db.rows[j]? = some r') (ha' : r'.isActive = true) :
    (∃ r, s.db.rows[j]? = some r ∧ r.isActive = true) ∨
    (∃ req other, a = .reserve req other ∧ phaseAGate s.db req other = none ∧
      j = s.db.rows.length) ∨
    (∃ pid act c, a = .child pid act ∧ s.children[pid]? = some c ∧ c.alive = true ∧
      c.rowId = j) := by
  rcases fleetStep_rows h with hrows | ⟨req, other, rfl, hgate, hrows⟩ | ⟨i, w, hw, hu⟩
  · exact Or.inl ⟨r', by rw [← hrows, hr'], ha'⟩
  · rw [hrows] at hr'
    rcases getElem?_concat_cases hr' with ⟨rfl, _⟩ | hold
    · exact Or.inr (Or.inl ⟨req, other, rfl, hgate, rfl⟩)
    · exact Or.inl ⟨r', hold, ha'⟩
  · rcases Db.write_isActive hw hr' ha' with hold | ⟨rfl, hug⟩
    · exact Or.inl hold
    · exact Or.inr (Or.inr (hu hug))

/-- A child keeps the row it was started for. -/
theorem fleetStep_child_row {pid : ℕ} {c : Child} (h : fleetStep host policy s a = some t)
    (hc : s.children[pid]? = some c) :
    ∃ c', t.children[pid]? = some c' ∧ c'.rowId = c.rowId := by
  have hlt := (List.getElem?_eq_some_iff.mp hc).1
  have hfollows : Follows s t → ∃ c', t.children[pid]? = some c' ∧ c'.rowId = c.rowId := by
    intro hf
    have hlt' : pid < t.children.length := by rw [hf.length_eq]; exact hlt
    obtain ⟨c₀, hc₀, hrow, _⟩ := hf.child pid _ (List.getElem?_eq_getElem hlt')
    obtain rfl : c = c₀ := by simpa [hc] using hc₀
    exact ⟨_, List.getElem?_eq_getElem hlt', hrow.symm⟩
  rcases fleetStep_kinds h with ⟨req, other, rfl⟩ | ⟨k, ev, rfl⟩ | ⟨_, _, hf⟩
  · rcases fleetStep_reserve h with rfl | ⟨_, _, _, hch, _⟩
    · exact ⟨c, hc, rfl⟩
    · exact ⟨c, by rw [hch, hc], rfl⟩
  · obtain ⟨sp, _, ⟨_, rfl⟩ | ⟨_, db', sp', _, rfl⟩⟩ := fleetStep_spawn h
    · refine ⟨c, ?_, rfl⟩
      show (s.children ++ [Child.fresh sp.rowId])[pid]? = some c
      rw [List.getElem?_append_left hlt, hc]
    · exact hfollows (s.follows_afterSpawn k (db', sp'))
  · exact hfollows hf

/-! ### Everybody at the latest row -/

/-- No live child, and no spawn that may still start one. -/
def Fleet.vacant (s : Fleet) : Bool :=
  (s.children.all fun c => !c.alive) && s.spawns.all fun sp => !sp.pc.isPreStart

/-- Live children, unstarted spawns and the active row are at the latest row. -/
structure LastRow (s : Fleet) : Prop where
  child : ∀ (pid : ℕ) (c : Child), s.children[pid]? = some c → c.alive = true →
    c.rowId + 1 = s.db.rows.length
  spawn : ∀ (k : ℕ) (sp : Spawn), s.spawns[k]? = some sp → sp.pc.isPreStart = true →
    sp.rowId + 1 = s.db.rows.length
  active : ∀ (i : ℕ) (r : NodeRow), s.db.rows[i]? = some r → r.isActive = true →
    i + 1 = s.db.rows.length

/-- Phase A opens a slot only on a vacant deployment. -/
def ReservesVacant (s : Fleet) : FleetLabel → Prop
  | .reserve req other => phaseAGate s.db req other = none → s.vacant = true
  | _ => True

instance (s : Fleet) (a : FleetLabel) : Decidable (ReservesVacant s a) :=
  match a with
  | .reserve req other =>
    inferInstanceAs (Decidable (phaseAGate s.db req other = none → s.vacant = true))
  | .spawn _ _ | .child _ _ | .childExit _ _ | .reap _ | .sweep _ _ | .watchdogSelect _ _
  | .watchdogFlush _ | .stop _ | .stopSignal | .apiStart _ | .apiStatus _ _ => isTrue trivial

/-- A new row of a vacant deployment is the only one anybody is on. -/
theorem LastRow.reserve {req : SpawnRequest} {other : OtherStartup}
    (hvac : phaseAGate s.db req other = none → s.vacant = true) (h : LastRow s)
    (hs : fleetStep host policy s (.reserve req other) = some t) : LastRow t := by
  rcases fleetStep_reserve hs with rfl | ⟨hgate, hrows, hsp, hch, _⟩
  · exact h
  obtain ⟨hnochild, hnospawn⟩ := Bool.and_eq_true_iff.mp (hvac hgate)
  rw [List.all_eq_true] at hnochild hnospawn
  obtain ⟨_, _, hina, _, _⟩ := phaseAGate_eq_none hgate
  have hlen : t.db.rows.length = s.db.rows.length + 1 := by rw [hrows]; simp
  refine ⟨?_, ?_, ?_⟩ <;> rw [hlen]
  · intro pid c hc ha
    rw [hch] at hc
    have hdead := hnochild c (List.mem_of_getElem? hc)
    rw [ha] at hdead
    cases hdead
  · intro k sp hk hpre
    rw [hsp] at hk
    rcases getElem?_concat_cases hk with ⟨_, rfl⟩ | hk
    · rfl
    · have hover := hnospawn sp (List.mem_of_getElem? hk)
      rw [hpre] at hover
      cases hover
  · intro i r hr ha
    rw [hrows] at hr
    rcases getElem?_concat_cases hr with ⟨rfl, _⟩ | hr
    · rfl
    · rw [Db.hasActive_iff.mpr ⟨i, r, hr, ha⟩] at hina
      cases hina

/-- **The step lemma.** -/
theorem LastRow.step (h : LastRow s) (hC : ReservesVacant s a)
    (hs : fleetStep host policy s a = some t) : LastRow t := by
  rcases fleetStep_kinds hs with ⟨req, other, rfl⟩ | hother
  · exact h.reserve hC hs
  have hne : ∀ req other, a ≠ .reserve req other := by
    rintro req other rfl
    rcases hother with ⟨k, ev, he⟩ | ⟨hne, _⟩
    · cases he
    · exact hne req other rfl
  have hlen := fleetStep_length hs hne
  have hactive : ∀ (i : ℕ) (r : NodeRow), t.db.rows[i]? = some r → r.isActive = true →
      i + 1 = s.db.rows.length := by
    intro i r hr ha
    rcases fleetStep_isActive hs hr ha with ⟨r₀, hr₀, ha₀⟩ | ⟨req, other, he, _⟩ |
        ⟨pid, act, c, _, hc, halive, rfl⟩
    · exact h.active i r₀ hr₀ ha₀
    · exact absurd he (hne req other)
    · -- only a live child re-activates a row, and it is on the latest one
      exact h.child pid c hc halive
  have hfollows : Follows s t → ∀ (pid : ℕ) (c : Child), t.children[pid]? = some c →
      c.alive = true → c.rowId + 1 = s.db.rows.length := by
    intro hf pid c hc ha
    obtain ⟨c₀, hc₀, hrow, halive, _⟩ := hf.child pid c hc
    exact hrow ▸ h.child pid c₀ hc₀ (halive ha)
  refine ⟨?_, ?_, ?_⟩ <;> rw [hlen]
  · rcases hother with ⟨k, ev, rfl⟩ | ⟨_, _, hf⟩
    · obtain ⟨sp, hk, ⟨hpc, rfl⟩ | ⟨_, db', sp', _, rfl⟩⟩ := fleetStep_spawn hs
      · intro pid c hc ha
        rcases getElem?_concat_cases (l := s.children) hc with ⟨_, rfl⟩ | hold
        · exact h.spawn k sp hk (by rw [hpc]; rfl)
        · exact h.child pid c hold ha
      · exact hfollows (s.follows_afterSpawn k (db', sp'))
    · exact hfollows hf
  · rcases hother with ⟨k, ev, rfl⟩ | ⟨_, hsp, _⟩
    · obtain ⟨sp, hk, ⟨hpc, rfl⟩ | ⟨hne', db', sp', heff, rfl⟩⟩ := fleetStep_spawn hs <;>
        intro j q hq hpre <;> rcases getElem?_set_cases hq with ⟨rfl, rfl⟩ | ⟨_, hq⟩
      · cases hpre
      · exact h.spawn j q hq hpre
      · rw [(heff.kept hne').1]
        exact h.spawn j sp hk (heff.isPreStart hpre)
      · exact h.spawn j q hq hpre
    · rw [hsp]
      exact h.spawn
  · exact hactive

end Msai.Supervisor
