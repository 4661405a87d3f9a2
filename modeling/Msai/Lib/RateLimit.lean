import Mathlib.Data.List.Basic
import Mathlib.Order.Lattice

namespace Msai.Lib

/-!
# Rate limits over a record of events

Events are given by their times, the newest last.  How long one time is after another is up to a
`gap`, which may round, as long as a longer interval has no smaller one.  A limiter admits an event
if fewer than `cap` events of its record are recent, and keeps the recent ones.

* `GapMono` — what is asked of a gap;
* `recent` — the events of the last `w`;
* `Limited` — no window shorter than `w` has more than `cap` events;
* `Remembers` — the record has every event that is still recent;
* `Limited.concat`, `Remembers.concat` — an admitted event keeps both;
* `Spaced` — any two events are `d` apart.
-/

variable {T D : Type*} {gap : T → T → D} {w d : D} {now : T} {cap : ℕ} {record events : List T}

/-- A relation of each event to those after it, with one more event. -/
theorem pairwise_concat {r : T → T → Prop} (h : events.Pairwise r) (hnow : ∀ t ∈ events, r t now) :
    (events ++ [now]).Pairwise r := by
  refine List.pairwise_append.mpr ⟨h, List.pairwise_singleton _ _, fun t ht t' ht' => ?_⟩
  obtain rfl := List.mem_singleton.mp ht'
  exact hnow t ht

variable [LinearOrder D]

/-- The events less than `w` before `now`. -/
def recent (gap : T → T → D) (w : D) (now : T) (events : List T) : List T :=
  events.filter fun t => gap t now < w

theorem recent_append (events' : List T) :
    recent gap w now (events ++ events') = recent gap w now events ++ recent gap w now events' :=
  List.filter_append ..

/-- Any two events are at least `d` apart. -/
def Spaced (gap : T → T → D) (d : D) (events : List T) : Prop :=
  events.Pairwise fun t t' => d ≤ gap t t'

variable [LinearOrder T]

/-- An interval that contains another one is not shorter. -/
def GapMono (gap : T → T → D) : Prop :=
  ∀ ⦃t t' u u' : T⦄, t' ≤ t → u ≤ u' → gap t u ≤ gap t' u'

/-- Every window shorter than `w` has at most `cap` events. -/
def Limited (gap : T → T → D) (w : D) (cap : ℕ) (events : List T) : Prop :=
  ∀ lo hi : T, gap lo hi < w → (events.filter fun t => lo ≤ t ∧ t ≤ hi).length ≤ cap

/-- From the last event on, the record has at least the events that are recent. -/
def Remembers (gap : T → T → D) (w : D) (record events : List T) : Prop :=
  ∀ now, (∀ t ∈ events, t ≤ now) →
    (recent gap w now events).length ≤ (recent gap w now record).length

theorem remembers_nil : Remembers gap w record ([] : List T) := fun _ _ => Nat.zero_le _

theorem limited_of_length_le (h : events.length ≤ cap) : Limited gap w cap events := fun _ _ _ =>
  Nat.le_trans (List.length_filter_le _ _) h

/-- What is not recent now is not recent later. -/
theorem recent_recent (hgap : GapMono gap) {later : T} (hle : now ≤ later) :
    recent gap w later (recent gap w now events) = recent gap w later events := by
  unfold recent
  rw [List.filter_filter]
  apply List.filter_congr
  intro t _
  have himp : gap t later < w → gap t now < w := lt_of_le_of_lt (hgap le_rfl hle)
  simpa using himp

/-- An event is recorded when it is admitted, and only old events are forgotten. -/
theorem Remembers.concat (h : Remembers gap w record events) (hgap : GapMono gap)
    (hle : ∀ t ∈ events, t ≤ now) :
    Remembers gap w (recent gap w now record ++ [now]) (events ++ [now]) := by
  intro later hlater
  have hnow : now ≤ later := hlater now (List.mem_append_right _ (List.mem_singleton_self now))
  have hold := h later fun t ht => (hle t ht).trans hnow
  rw [recent_append, recent_append, recent_recent hgap hnow, List.length_append,
    List.length_append]
  omega

/-- **Sliding window.**  An event is admitted only while the record has room for it; then no window
    is overfull. -/
theorem Limited.concat (h : Limited gap w cap events) (hgap : GapMono gap)
    (hrec : Remembers gap w record events) (hle : ∀ t ∈ events, t ≤ now)
    (hroom : (recent gap w now record).length < cap) : Limited gap w cap (events ++ [now]) := by
  intro lo hi hwindow
  rw [List.filter_append, List.length_append]
  by_cases hin : lo ≤ now ∧ now ≤ hi
  · -- the window ends at or after `now`, so its events are all recent
    have hsub : (events.filter fun t => lo ≤ t ∧ t ≤ hi).length
        ≤ (recent gap w now events).length := by
      apply List.Sublist.length_le
      apply List.monotone_filter_right
      intro t ht
      have hlo : lo ≤ t := (of_decide_eq_true ht).1
      exact decide_eq_true (lt_of_le_of_lt (hgap hlo hin.2) hwindow)
    have hkept := hrec now hle
    have hone : ([now].filter fun t => lo ≤ t ∧ t ≤ hi).length = 1 := by simp [hin]
    omega
  · have hnone : ([now].filter fun t => lo ≤ t ∧ t ≤ hi).length = 0 := by simpa using hin
    have hold := h lo hi hwindow
    omega

end Msai.Lib
