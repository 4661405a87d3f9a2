import Mathlib.Data.List.Basic
import Mathlib.Data.List.Nodup

namespace Msai.Lib

/-!
# Append-only streams read through a consumer group

The fragment of Redis Streams that a work queue needs: `XADD`, `XGROUP CREATE $`,
`XREADGROUP >`, `XAUTOCLAIM`, `XPENDING id id` and `XACK`, for one stream with one group.
Entry ids are natural numbers that grow with every `XADD`; entries are never trimmed.

* `isPending` — which entries the group has read and not acknowledged.
* `WF` — ids are sorted, nothing is pending that was not delivered or is not stored.
* one lemma per command says where every entry stands afterwards.
-/

universe u v

/-- A stream entry. -/
structure Entry (φ : Type u) where
  id : ℕ
  fields : φ
deriving DecidableEq, Repr

/-- An entry of the Pending Entries List. -/
structure Pending (κ : Type v) where
  id : ℕ
  consumer : κ
  deliveredAt : ℕ
  deliveries : ℕ
deriving DecidableEq, Repr

/-- A consumer group: its position in the stream and its PEL, ordered by id. -/
structure ConsumerGroup (κ : Type v) where
  lastDelivered : ℕ
  pel : List (Pending κ)
deriving DecidableEq, Repr

/-- A stream with at most one consumer group. -/
structure GroupStream (κ : Type v) (φ : Type u) where
  entries : List (Entry φ)
  lastId : ℕ
  group : Option (ConsumerGroup κ)
deriving DecidableEq, Repr

variable {κ : Type v} {φ : Type u}

namespace ConsumerGroup

/-- `XREADGROUP > COUNT count`: entries after the group's position enter the PEL with
    delivery count 1. -/
def read (entries : List (Entry φ)) (now : ℕ) (me : κ) (count : ℕ) (g : ConsumerGroup κ) :
    List (Entry φ) × ConsumerGroup κ :=
  let batch := (entries.filter fun e => g.lastDelivered < e.id).take count
  (batch,
    { lastDelivered := (batch.getLast?.map (·.id)).getD g.lastDelivered
      pel := g.pel ++ batch.map fun e => ⟨e.id, me, now, 1⟩ })

/-- The loop of `XAUTOCLAIM` over the PEL from its start id on: claimed entries, the PEL
    after the loop and the next cursor (`0` at the end of the list).  At most `attempts`
    entries are looked at and at most `count` are returned; an entry that is no longer in the
    stream leaves the PEL. -/
def claimLoop (entries : List (Entry φ)) (now minIdle : ℕ) (me : κ) :
    ℕ → ℕ → List (Pending κ) → List (Entry φ) × List (Pending κ) × ℕ
  | _, _, [] => ([], [], 0)
  | 0, _, p :: ps => ([], p :: ps, p.id)
  | _ + 1, 0, p :: ps => ([], p :: ps, p.id)
  | attempts + 1, count + 1, p :: ps =>
    match entries.find? fun e => e.id == p.id with
    | none => claimLoop entries now minIdle me attempts count ps
    | some e =>
      if now - p.deliveredAt < minIdle then
        let r := claimLoop entries now minIdle me attempts (count + 1) ps
        (r.1, p :: r.2.1, r.2.2)
      else
        let r := claimLoop entries now minIdle me attempts count ps
        (e :: r.1, ⟨p.id, me, now, p.deliveries + 1⟩ :: r.2.1, r.2.2)

/-- `XAUTOCLAIM start COUNT count`: next cursor, claimed entries, group afterwards. -/
def autoclaim (entries : List (Entry φ)) (now minIdle : ℕ) (me : κ) (start count : ℕ)
    (g : ConsumerGroup κ) : ℕ × List (Entry φ) × ConsumerGroup κ :=
  let r := claimLoop entries now minIdle me (10 * count) count
    (g.pel.filter fun p => start ≤ p.id)
  (r.2.2, r.1, { g with pel := (g.pel.filter fun p => p.id < start) ++ r.2.1 })

/-- `XPENDING id id 1`: the delivery count of one pending entry. -/
def timesDelivered (g : ConsumerGroup κ) (id : ℕ) : Option ℕ :=
  (g.pel.find? fun p => p.id == id).map (·.deliveries)

/-- `XACK id`. -/
def ack (g : ConsumerGroup κ) (id : ℕ) : ConsumerGroup κ :=
  { g with pel := g.pel.filter fun p => p.id ≠ id }

/-- Some PEL entry has this id. -/
def isPending (g : ConsumerGroup κ) (id : ℕ) : Prop := ∃ p ∈ g.pel, p.id = id

end ConsumerGroup

namespace GroupStream

/-- `XADD`. -/
def xadd (st : GroupStream κ φ) (fields : φ) : GroupStream κ φ :=
  { st with entries := st.entries ++ [⟨st.lastId + 1, fields⟩], lastId := st.lastId + 1 }

/-- `XGROUP CREATE $ MKSTREAM`, with `BUSYGROUP` swallowed. -/
def createGroup (st : GroupStream κ φ) : GroupStream κ φ :=
  match st.group with
  | some _ => st
  | none => { st with group := some ⟨st.lastId, []⟩ }

/-- The stream without entries and without group. -/
def empty : GroupStream κ φ := ⟨[], 0, none⟩

@[simp] theorem createGroup_entries (st : GroupStream κ φ) :
    st.createGroup.entries = st.entries := by
  unfold createGroup
  split <;> rfl

/-- A group that has a pending entry right after `XGROUP CREATE` was there before. -/
theorem createGroup_pending {st : GroupStream κ φ} {g : ConsumerGroup κ} {p : Pending κ}
    (hg : st.createGroup.group = some g) (hp : p ∈ g.pel) : st.group = some g := by
  cases hgrp : st.group with
  | none =>
    simp only [createGroup, hgrp] at hg
    cases hg
    cases hp
  | some g' =>
    simp only [createGroup, hgrp] at hg
    exact hg

/-- A well-formed stream with its group. -/
structure WF (st : GroupStream κ φ) : Prop where
  sorted : st.entries.Pairwise fun e f => e.id < f.id
  bounded : ∀ e ∈ st.entries, e.id ≤ st.lastId
  positioned : ∀ g, st.group = some g → g.lastDelivered ≤ st.lastId
  delivered : ∀ g, st.group = some g → ∀ p ∈ g.pel, p.id ≤ g.lastDelivered
  stored : ∀ g, st.group = some g → ∀ p ∈ g.pel, ∃ e ∈ st.entries, e.id = p.id

end GroupStream

/-! ### Positions of the entries -/

section Positions

variable {entries : List (Entry φ)} {now minIdle start count attempts id : ℕ} {me : κ}
variable {g : ConsumerGroup κ} {pel rest : List (Pending κ)} {e : Entry φ} {p : Pending κ}

/-- A sorted list is cut by `take` at the last id it keeps. -/
private theorem cut_take {l : List (Entry φ)} (hl : l.Pairwise fun e f => e.id < f.id)
    {d : ℕ} (hd : ∀ e ∈ l, d < e.id) (he : e ∈ l) :
    (e ∈ l.take count ∧ e.id ≤ ((l.take count).getLast?.map (·.id)).getD d) ∨
    (e ∉ l.take count ∧ ((l.take count).getLast?.map (·.id)).getD d < e.id) := by
  have hpair := hl
  rw [← List.take_append_drop count l, List.pairwise_append] at hpair
  obtain ⟨htake, -, hcross⟩ := hpair
  rw [← List.take_append_drop count l, List.mem_append] at he
  rcases List.eq_nil_or_concat (l.take count) with hnil | ⟨init, x, hx⟩
  · -- nothing is taken: the position stays before every entry
    rw [hnil] at he ⊢
    refine .inr ⟨List.not_mem_nil, ?_⟩
    rcases he with h | h
    · cases h
    · simpa using hd e (List.mem_of_mem_drop h)
  · rw [hx] at he hcross htake ⊢
    simp only [List.concat_eq_append] at he hcross htake ⊢
    simp only [List.getLast?_append, List.getLast?_singleton, Option.some_or, Option.map_some,
      Option.getD_some]
    rcases he with h | h
    · refine .inl ⟨h, ?_⟩
      rcases List.mem_append.mp h with h' | h'
      · exact Nat.le_of_lt ((List.pairwise_append.mp htake).2.2 e h' x (by simp))
      · exact Nat.le_of_eq (by rw [List.mem_singleton.mp h'])
    · -- an entry that is dropped stands behind the last one taken
      have hlt := hcross x (by simp) e h
      refine .inr ⟨fun hmem => ?_, hlt⟩
      exact Nat.lt_irrefl _ (hcross e hmem e h)

/-- Reading moves the position past exactly the entries of the batch. -/
theorem ConsumerGroup.read_cut (now : ℕ) (me : κ) (count : ℕ)
    (hs : entries.Pairwise fun e f => e.id < f.id) (he : e ∈ entries)
    (hpos : g.lastDelivered < e.id) :
    (e ∈ (g.read entries now me count).1 ∧ e.id ≤ (g.read entries now me count).2.lastDelivered) ∨
    (e ∉ (g.read entries now me count).1 ∧ (g.read entries now me count).2.lastDelivered < e.id) :=
  cut_take (hs.filter _) (fun f hf => by simpa using (List.mem_filter.mp hf).2)
    (List.mem_filter.mpr ⟨he, by simpa using hpos⟩)

/-- What is read was stored and not delivered before. -/
theorem ConsumerGroup.mem_read (h : e ∈ (g.read entries now me count).1) :
    e ∈ entries ∧ g.lastDelivered < e.id := by
  have h' := List.mem_filter.mp (List.mem_of_mem_take h)
  exact ⟨h'.1, by simpa using h'.2⟩

/-- The position is the old one or that of an entry of the batch. -/
theorem ConsumerGroup.read_lastDelivered (g : ConsumerGroup κ) (entries : List (Entry φ)) (now : ℕ)
    (me : κ) (count : ℕ) :
    (g.read entries now me count).2.lastDelivered = g.lastDelivered ∨
    ∃ e ∈ (g.read entries now me count).1,
      (g.read entries now me count).2.lastDelivered = e.id := by
  simp only [ConsumerGroup.read]
  cases hl : ((entries.filter fun e => g.lastDelivered < e.id).take count).getLast? with
  | none => exact .inl rfl
  | some e => exact .inr ⟨e, List.mem_of_getLast? hl, rfl⟩

/-- The position never moves back. -/
theorem ConsumerGroup.lastDelivered_le_read :
    g.lastDelivered ≤ (g.read entries now me count).2.lastDelivered := by
  rcases g.read_lastDelivered entries now me count with h | ⟨e, he, h⟩
  · exact Nat.le_of_eq h.symm
  · rw [h]
    exact Nat.le_of_lt (ConsumerGroup.mem_read he).2

/-- The PEL after a read. -/
theorem ConsumerGroup.mem_read_pel :
    p ∈ (g.read entries now me count).2.pel ↔
      p ∈ g.pel ∨ ∃ e ∈ (g.read entries now me count).1, (⟨e.id, me, now, 1⟩ : Pending κ) = p := by
  simp only [ConsumerGroup.read, List.mem_append, List.mem_map]

/-- The claiming loop at the end of the list. -/
theorem ConsumerGroup.claimLoop_nil :
    ConsumerGroup.claimLoop entries now minIdle me attempts count ([] : List (Pending κ)) =
      ([], [], 0) := by
  cases attempts <;> rfl

/-- The claiming loop at a record, while it may look at and return one more. -/
theorem ConsumerGroup.claimLoop_cons :
    ConsumerGroup.claimLoop entries now minIdle me (attempts + 1) (count + 1) (p :: pel) =
      match entries.find? fun e => e.id == p.id with
      | none => ConsumerGroup.claimLoop entries now minIdle me attempts count pel
      | some e =>
        if now - p.deliveredAt < minIdle then
          let r := ConsumerGroup.claimLoop entries now minIdle me attempts (count + 1) pel
          (r.1, p :: r.2.1, r.2.2)
        else
          let r := ConsumerGroup.claimLoop entries now minIdle me attempts count pel
          (e :: r.1, ⟨p.id, me, now, p.deliveries + 1⟩ :: r.2.1, r.2.2) := rfl

/-- What the claiming loop does to the PEL: an entry keeps its record, or is claimed and
    returned with one more delivery. -/
theorem ConsumerGroup.mem_claimLoop
    (h : p ∈ (ConsumerGroup.claimLoop entries now minIdle me attempts count pel).2.1) :
    p ∈ pel ∨ ∃ q ∈ pel, p.id = q.id ∧ p.deliveries = q.deliveries + 1 ∧
      ∃ e ∈ (ConsumerGroup.claimLoop entries now minIdle me attempts count pel).1, e.id = p.id := by
  induction attempts, count, pel using ConsumerGroup.claimLoop.induct entries now
      minIdle me with
  | case1 => rw [ConsumerGroup.claimLoop_nil] at h; cases h
  | case2 => exact .inl h
  | case3 => exact .inl h
  | case4 attempts count q qs hfind ih =>
    simp only [ConsumerGroup.claimLoop_cons, hfind] at h ⊢
    -- the entry was trimmed: its record is dropped
    rcases ih h with h' | ⟨r, hr, h'⟩
    · exact .inl (List.mem_cons_of_mem _ h')
    · exact .inr ⟨r, List.mem_cons_of_mem _ hr, h'⟩
  | case5 attempts count q qs e hfind hidle ih =>
    simp only [ConsumerGroup.claimLoop_cons, hfind, hidle, if_true, List.mem_cons] at h ⊢
    rcases h with rfl | h
    · exact .inl (.inl rfl)
    · rcases ih h with h' | ⟨r, hr, h'⟩
      · exact .inl (.inr h')
      · exact .inr ⟨r, .inr hr, h'⟩
  | case6 attempts count q qs e hfind hidle ih =>
    simp only [ConsumerGroup.claimLoop_cons, hfind, hidle, if_false, List.mem_cons] at h ⊢
    rcases h with rfl | h
    · have hid : e.id = q.id := by simpa using List.find?_some hfind
      exact .inr ⟨q, .inl rfl, rfl, rfl, e, .inl rfl, hid⟩
    · rcases ih h with h' | ⟨r, hr, h1, h2, f, hf, h3⟩
      · exact .inl (.inr h')
      · exact .inr ⟨r, .inr hr, h1, h2, f, .inr hf, h3⟩

/-- An entry that is still stored stays pending through the claiming loop. -/
theorem ConsumerGroup.claimLoop_keeps (now minIdle : ℕ) (me : κ) (attempts count : ℕ)
    (he : e ∈ entries) (hp : p ∈ pel) (hid : p.id = e.id) :
    ∃ q ∈ (ConsumerGroup.claimLoop entries now minIdle me attempts count pel).2.1, q.id = e.id := by
  induction attempts, count, pel using ConsumerGroup.claimLoop.induct entries now
      minIdle me with
  | case1 => cases hp
  | case2 => exact ⟨p, hp, hid⟩
  | case3 => exact ⟨p, hp, hid⟩
  | case4 attempts count q qs hfind ih =>
    simp only [ConsumerGroup.claimLoop_cons, hfind]
    -- a trimmed entry is not the one of the lemma
    rcases List.mem_cons.mp hp with rfl | hp
    · have := List.find?_eq_none.mp hfind e he
      exact absurd hid.symm (by simpa using this)
    · exact ih hp
  | case5 attempts count q qs f hfind hidle ih =>
    simp only [ConsumerGroup.claimLoop_cons, hfind, hidle, if_true, List.mem_cons]
    rcases List.mem_cons.mp hp with rfl | hp
    · exact ⟨p, .inl rfl, hid⟩
    · obtain ⟨r, hr, hrid⟩ := ih hp
      exact ⟨r, .inr hr, hrid⟩
  | case6 attempts count q qs f hfind hidle ih =>
    simp only [ConsumerGroup.claimLoop_cons, hfind, hidle, if_false, List.mem_cons]
    rcases List.mem_cons.mp hp with rfl | hp
    · exact ⟨_, .inl rfl, hid⟩
    · obtain ⟨r, hr, hrid⟩ := ih hp
      exact ⟨r, .inr hr, hrid⟩

/-- Claimed entries are stored entries. -/
theorem ConsumerGroup.mem_claimLoop_claimed
    (h : e ∈ (ConsumerGroup.claimLoop entries now minIdle me attempts count pel).1) :
    e ∈ entries := by
  induction attempts, count, pel using ConsumerGroup.claimLoop.induct entries now
      minIdle me with
  | case1 => rw [ConsumerGroup.claimLoop_nil] at h; cases h
  | case2 => exact absurd h List.not_mem_nil
  | case3 => exact absurd h List.not_mem_nil
  | case4 attempts count q qs hfind ih =>
    simp only [ConsumerGroup.claimLoop_cons, hfind] at h
    exact ih h
  | case5 attempts count q qs f hfind hidle ih =>
    simp only [ConsumerGroup.claimLoop_cons, hfind, hidle, if_true] at h
    exact ih h
  | case6 attempts count q qs f hfind hidle ih =>
    simp only [ConsumerGroup.claimLoop_cons, hfind, hidle, if_false, List.mem_cons] at h
    rcases h with rfl | h
    · exact List.mem_of_find?_eq_some hfind
    · exact ih h

/-- What `XAUTOCLAIM` does to the PEL. -/
theorem ConsumerGroup.mem_autoclaim
    (h : p ∈ (g.autoclaim entries now minIdle me start count).2.2.pel) :
    p ∈ g.pel ∨ ∃ q ∈ g.pel, p.id = q.id ∧ p.deliveries = q.deliveries + 1 ∧
      ∃ e ∈ (g.autoclaim entries now minIdle me start count).2.1, e.id = p.id := by
  simp only [ConsumerGroup.autoclaim, List.mem_append] at h ⊢
  rcases h with h | h
  · exact .inl (List.mem_filter.mp h).1
  · rcases ConsumerGroup.mem_claimLoop h with h' | ⟨q, hq, h'⟩
    · exact .inl (List.mem_filter.mp h').1
    · exact .inr ⟨q, (List.mem_filter.mp hq).1, h'⟩

/-- `XAUTOCLAIM` returns stored entries. -/
theorem ConsumerGroup.mem_autoclaim_claimed
    (h : e ∈ (g.autoclaim entries now minIdle me start count).2.1) : e ∈ entries :=
  ConsumerGroup.mem_claimLoop_claimed h

/-- `XAUTOCLAIM` leaves the position alone. -/
@[simp] theorem ConsumerGroup.autoclaim_lastDelivered :
    (g.autoclaim entries now minIdle me start count).2.2.lastDelivered = g.lastDelivered := rfl

/-- `XAUTOCLAIM` changes no stored entry's being pending. -/
theorem ConsumerGroup.isPending_autoclaim (he : e ∈ entries) :
    (g.autoclaim entries now minIdle me start count).2.2.isPending e.id ↔ g.isPending e.id := by
  constructor
  · rintro ⟨p, hp, hid⟩
    rcases ConsumerGroup.mem_autoclaim hp with h | ⟨q, hq, hpq, -⟩
    · exact ⟨p, h, hid⟩
    · exact ⟨q, hq, hpq.symm.trans hid⟩
  · rintro ⟨p, hp, hid⟩
    simp only [ConsumerGroup.isPending, ConsumerGroup.autoclaim, List.mem_append]
    -- a record before the start of the page is not looked at
    by_cases hlt : p.id < start
    · exact ⟨p, .inl (List.mem_filter.mpr ⟨hp, by simpa using hlt⟩), hid⟩
    · have hfrom : p ∈ g.pel.filter fun p => start ≤ p.id :=
        List.mem_filter.mpr ⟨hp, by simpa using hlt⟩
      obtain ⟨q, hq, hqid⟩ :=
        ConsumerGroup.claimLoop_keeps now minIdle me (10 * count) count he hfrom hid
      exact ⟨q, .inr hq, hqid⟩

theorem ConsumerGroup.mem_ack : p ∈ (g.ack id).pel ↔ p ∈ g.pel ∧ p.id ≠ id := by
  simp only [ConsumerGroup.ack, List.mem_filter, decide_eq_true_eq]

@[simp] theorem ConsumerGroup.ack_lastDelivered : (g.ack id).lastDelivered = g.lastDelivered := rfl

/-- The acknowledged id leaves the PEL, every other id stays. -/
theorem ConsumerGroup.isPending_ack {id' : ℕ} :
    (g.ack id).isPending id' ↔ g.isPending id' ∧ id' ≠ id := by
  constructor
  · rintro ⟨p, hp, rfl⟩
    obtain ⟨hp, hne⟩ := ConsumerGroup.mem_ack.mp hp
    exact ⟨⟨p, hp, rfl⟩, hne⟩
  · rintro ⟨⟨p, hp, rfl⟩, hne⟩
    exact ⟨p, ConsumerGroup.mem_ack.mpr ⟨hp, hne⟩, rfl⟩

/-- `XPENDING` reports a record of the PEL. -/
theorem ConsumerGroup.timesDelivered_eq_some {n : ℕ} (h : g.timesDelivered id = some n) :
    ∃ p ∈ g.pel, p.id = id ∧ p.deliveries = n := by
  obtain ⟨p, hfind, hn⟩ := Option.map_eq_some_iff.mp h
  exact ⟨p, List.mem_of_find?_eq_some hfind, by simpa using List.find?_some hfind, hn⟩

/-- `XPENDING` finds exactly the pending entries. -/
theorem ConsumerGroup.timesDelivered_isSome :
    (g.timesDelivered id).isSome = true ↔ g.isPending id := by
  simp only [ConsumerGroup.timesDelivered, Option.isSome_map, List.find?_isSome, beq_iff_eq,
    ConsumerGroup.isPending]

end Positions

/-! ### Well-formedness -/

namespace GroupStream

variable {st : GroupStream κ φ} {g : ConsumerGroup κ} {fields : φ}
  {now minIdle start count id : ℕ} {me : κ}

theorem wf_empty : (empty : GroupStream κ φ).WF where
  sorted := .nil
  bounded := by simp [empty]
  positioned := by simp [empty]
  delivered := by simp [empty]
  stored := by simp [empty]

/-- An id names one entry. -/
theorem WF.eq_of_id_eq (h : st.WF) {e f : Entry φ} (he : e ∈ st.entries) (hf : f ∈ st.entries)
    (hid : e.id = f.id) : e = f := by
  have hnodup : (st.entries.map (·.id)).Nodup := by
    rw [List.Nodup, List.pairwise_map]
    exact h.sorted.imp fun hlt => Nat.ne_of_lt hlt
  exact List.inj_on_of_nodup_map hnodup he hf hid

/-- `XADD` keeps the stream well formed. -/
theorem WF.xadd (h : st.WF) : (st.xadd fields).WF where
  sorted := by
    simp only [GroupStream.xadd, List.pairwise_append, List.pairwise_singleton, true_and]
    refine ⟨h.sorted, fun e he f hf => ?_⟩
    rw [List.mem_singleton.mp hf]
    exact Nat.lt_succ_of_le (h.bounded e he)
  bounded := by
    intro e he
    simp only [GroupStream.xadd, List.mem_append, List.mem_singleton] at he ⊢
    rcases he with he | rfl
    · exact Nat.le_succ_of_le (h.bounded e he)
    · exact Nat.le_refl _
  positioned := fun g hg => Nat.le_succ_of_le (h.positioned g hg)
  delivered := h.delivered
  stored := by
    intro g hg p hp
    obtain ⟨e, he, hid⟩ := h.stored g hg p hp
    exact ⟨e, List.mem_append_left _ he, hid⟩

/-- `XGROUP CREATE` keeps the stream well formed. -/
theorem WF.createGroup (h : st.WF) : st.createGroup.WF := by
  unfold GroupStream.createGroup
  split
  · exact h
  · exact
      { sorted := h.sorted
        bounded := h.bounded
        positioned := by rintro g ⟨⟩; exact Nat.le_refl _
        delivered := by rintro g ⟨⟩ p hp; cases hp
        stored := by rintro g ⟨⟩ p hp; cases hp }

/-- `XREADGROUP` keeps the stream well formed. -/
theorem WF.read (h : st.WF) (hg : st.group = some g) :
    { st with group := some (g.read st.entries now me count).2 }.WF where
  sorted := h.sorted
  bounded := h.bounded
  positioned := by
    rintro g' ⟨⟩
    rcases g.read_lastDelivered st.entries now me count with hl | ⟨e, he, hl⟩
    · rw [hl]
      exact h.positioned g hg
    · rw [hl]
      exact h.bounded e (ConsumerGroup.mem_read he).1
  delivered := by
    rintro g' ⟨⟩ p hp
    rcases ConsumerGroup.mem_read_pel.mp hp with hp | ⟨e, he, rfl⟩
    · exact Nat.le_trans (h.delivered g hg p hp) ConsumerGroup.lastDelivered_le_read
    · obtain ⟨hmem, hpos⟩ := ConsumerGroup.mem_read he
      rcases ConsumerGroup.read_cut now me count h.sorted hmem hpos with ⟨-, hle⟩ | ⟨hnot, -⟩
      · exact hle
      · exact absurd he hnot
  stored := by
    rintro g' ⟨⟩ p hp
    rcases ConsumerGroup.mem_read_pel.mp hp with hp | ⟨e, he, rfl⟩
    · exact h.stored g hg p hp
    · exact ⟨e, (ConsumerGroup.mem_read he).1, rfl⟩

/-- `XAUTOCLAIM` keeps the stream well formed. -/
theorem WF.autoclaim (h : st.WF) (hg : st.group = some g) :
    { st with group := some (g.autoclaim st.entries now minIdle me start count).2.2 }.WF where
  sorted := h.sorted
  bounded := h.bounded
  positioned := by
    rintro g' ⟨⟩
    exact h.positioned g hg
  delivered := by
    rintro g' ⟨⟩ p hp
    rcases ConsumerGroup.mem_autoclaim hp with hp | ⟨q, hq, hid, -⟩
    · exact h.delivered g hg p hp
    · exact hid ▸ h.delivered g hg q hq
  stored := by
    rintro g' ⟨⟩ p hp
    rcases ConsumerGroup.mem_autoclaim hp with hp | ⟨q, hq, hid, -⟩
    · exact h.stored g hg p hp
    · exact hid ▸ h.stored g hg q hq

/-- `XACK` keeps the stream well formed. -/
theorem WF.ack (h : st.WF) (hg : st.group = some g) :
    { st with group := some (g.ack id) }.WF where
  sorted := h.sorted
  bounded := h.bounded
  positioned := by
    rintro g' ⟨⟩
    exact h.positioned g hg
  delivered := by
    rintro g' ⟨⟩ p hp
    exact h.delivered g hg p (ConsumerGroup.mem_ack.mp hp).1
  stored := by
    rintro g' ⟨⟩ p hp
    exact h.stored g hg p (ConsumerGroup.mem_ack.mp hp).1

end GroupStream

end Msai.Lib
