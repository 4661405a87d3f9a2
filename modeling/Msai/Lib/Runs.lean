import Mathlib.Data.List.Chain
import Mathlib.Data.List.Sort
import Mathlib.Order.Basic

namespace Msai.Lib

/-!
# Increasing lists

A list that increases, cut at one of its elements and cut into runs.

* `filter_le_eq_take`, `filter_gt_eq_drop` — the elements up to one of them, and those behind it;
* `mem_drop_length_sub` — the last elements of a list;
* `runs` — the first and the last element of each run, where `join` says which neighbours are in
  one;
* `runs_pairwise`, `exists_mem_runs`, `ends_of_mem_runs` — runs are apart, and hold the elements
  of the list;
* `runs_isChain_iff`, `runs_avoid_iff` — what lies between runs, and what lies in them;
* `isChain_and_iff`, `isChain_not_between` — neighbours in a list.
-/

universe u v

variable {α : Type u} {κ : Type v} [LinearOrder κ]

/-! ### Cuts -/

section Cut

variable {key : α → κ} {l : List α} {i : ℕ} {a : α}

theorem filter_le_eq_take (hsorted : l.Pairwise fun a b => key a < key b) (ha : l[i]? = some a) :
    l.filter (fun b => key b ≤ key a) = l.take (i + 1) := by
  induction hsorted generalizing i with
  | nil => cases ha
  | @cons b l hlt hsorted ih =>
    cases i with
    | zero =>
      obtain rfl : b = a := Option.some.inj ha
      have hnone : l.filter (fun c => key c ≤ key b) = [] :=
        List.filter_eq_nil_iff.mpr fun c hc => by simpa using hlt c hc
      rw [List.filter_cons_of_pos (by simp), hnone]
      rfl
    | succ i =>
      rw [List.getElem?_cons_succ] at ha
      have hba : key b ≤ key a := (hlt a (List.mem_of_getElem? ha)).le
      rw [List.filter_cons_of_pos (p := fun c => decide (key c ≤ key a)) (decide_eq_true hba),
        ih ha, List.take_succ_cons]

theorem filter_gt_eq_drop (hsorted : l.Pairwise fun a b => key a < key b) (ha : l[i]? = some a) :
    l.filter (fun b => key a < key b) = l.drop (i + 1) := by
  induction hsorted generalizing i with
  | nil => cases ha
  | @cons b l hlt hsorted ih =>
    cases i with
    | zero =>
      obtain rfl : b = a := Option.some.inj ha
      rw [List.filter_cons_of_neg (by simp)]
      exact List.filter_eq_self.mpr fun c hc => decide_eq_true (hlt c hc)
    | succ i =>
      rw [List.getElem?_cons_succ] at ha
      have hba : ¬ key a < key b := not_lt.mpr (hlt a (List.mem_of_getElem? ha)).le
      rw [List.filter_cons_of_neg (by simpa using hba), ih ha, List.drop_succ_cons]

end Cut

/-- **The last elements** have few behind them. -/
theorem mem_drop_length_sub {l : List κ} (hsorted : l.Pairwise (· < ·)) {n : ℕ} {a : κ} :
    a ∈ l.drop (l.length - n) ↔ a ∈ l ∧ (l.filter fun b => a < b).length < n := by
  have hbehind : ∀ i (hi : i < l.length), (l.filter fun b => l[i] < b).length
      = l.length - (i + 1) := by
    intro i hi
    have hdrop : l.filter (fun b => id l[i] < id b) = l.drop (i + 1) :=
      filter_gt_eq_drop hsorted (List.getElem?_eq_getElem hi)
    exact (congrArg List.length hdrop).trans List.length_drop
  rw [List.mem_drop_iff_getElem]
  constructor
  · rintro ⟨i, hi, rfl⟩
    refine ⟨List.getElem_mem _, ?_⟩
    rw [hbehind]
    omega
  · rintro ⟨hmem, hfew⟩
    obtain ⟨i, hi, rfl⟩ := List.getElem_of_mem hmem
    rw [hbehind i hi] at hfew
    refine ⟨i - (l.length - n), by omega, ?_⟩
    congr 1
    omega

/-! ### Runs -/

section Runs

variable (join : κ → κ → Prop) [DecidableRel join]

/-- The runs of what is left, behind a run that is open. -/
def runsFrom (first last : κ) : List κ → List (κ × κ)
  | [] => [(first, last)]
  | a :: l => if join last a then runsFrom first a l else (first, last) :: runsFrom a a l

/-- The runs of a list. -/
def runs : List κ → List (κ × κ)
  | [] => []
  | a :: l => runsFrom join a a l

variable {join} {first last : κ} {l : List κ} {r : κ × κ}

omit [LinearOrder κ] in
theorem runsFrom_eq_cons (first last : κ) (l : List κ) :
    ∃ e rest, runsFrom join first last l = (first, e) :: rest := by
  induction l generalizing last with
  | nil => exact ⟨last, [], rfl⟩
  | cons a l ih =>
    unfold runsFrom
    split
    · exact ih a
    · exact ⟨last, _, rfl⟩

/-- Runs begin and end on elements. -/
theorem ends_of_mem_runsFrom (hle : first ≤ last) (hr : r ∈ runsFrom join first last l)
    (hsorted : (last :: l).Pairwise (· < ·)) :
    (r.1 = first ∨ r.1 ∈ l) ∧ (r.2 = last ∨ r.2 ∈ l) ∧ r.1 ≤ r.2 := by
  induction l generalizing first last with
  | nil =>
    obtain rfl := List.mem_singleton.mp hr
    exact ⟨Or.inl rfl, Or.inl rfl, hle⟩
  | cons a l ih =>
    obtain ⟨hlast, hrest⟩ := List.pairwise_cons.mp hsorted
    have hla : last < a := hlast a List.mem_cons_self
    unfold runsFrom at hr
    split at hr
    · obtain ⟨hfirst, hend, hrle⟩ := ih (hle.trans hla.le) hr hrest
      refine ⟨hfirst.imp_right (List.mem_cons_of_mem a), Or.inr ?_, hrle⟩
      exact hend.elim (fun h => h ▸ List.mem_cons_self) (List.mem_cons_of_mem a)
    · rcases List.mem_cons.mp hr with rfl | hr
      · exact ⟨Or.inl rfl, Or.inl rfl, hle⟩
      · obtain ⟨hfirst, hend, hrle⟩ := ih le_rfl hr hrest
        refine ⟨Or.inr ?_, Or.inr ?_, hrle⟩
        · exact hfirst.elim (fun h => h ▸ List.mem_cons_self) (List.mem_cons_of_mem a)
        · exact hend.elim (fun h => h ▸ List.mem_cons_self) (List.mem_cons_of_mem a)

theorem runsFrom_pairwise (hle : first ≤ last) (hsorted : (last :: l).Pairwise (· < ·)) :
    (runsFrom join first last l).Pairwise fun r r' => r.2 < r'.1 := by
  induction l generalizing first last with
  | nil => exact List.pairwise_singleton _ _
  | cons a l ih =>
    obtain ⟨hlast, hrest⟩ := List.pairwise_cons.mp hsorted
    have hla : last < a := hlast a List.mem_cons_self
    unfold runsFrom
    split
    · exact ih (hle.trans hla.le) hrest
    · refine List.pairwise_cons.mpr ⟨fun r hr => ?_, ih le_rfl hrest⟩
      rcases (ends_of_mem_runsFrom le_rfl hr hrest).1 with h | h
      · exact h ▸ hla
      · exact hlast _ (List.mem_cons_of_mem a h)

/-- Each element is in a run. -/
theorem exists_mem_runsFrom {d : κ} (hle : first ≤ last) (hsorted : (last :: l).Pairwise (· < ·))
    (hd : (first ≤ d ∧ d ≤ last) ∨ d ∈ l) :
    ∃ r ∈ runsFrom join first last l, r.1 ≤ d ∧ d ≤ r.2 := by
  induction l generalizing first last with
  | nil => exact ⟨_, List.mem_singleton_self _, hd.resolve_right List.not_mem_nil⟩
  | cons a l ih =>
    obtain ⟨hlast, hrest⟩ := List.pairwise_cons.mp hsorted
    have hla : last < a := hlast a List.mem_cons_self
    unfold runsFrom
    split
    · refine ih (hle.trans hla.le) hrest ?_
      rcases hd with hd | hd
      · exact Or.inl ⟨hd.1, hd.2.trans hla.le⟩
      · rcases List.mem_cons.mp hd with rfl | hd
        · exact Or.inl ⟨hle.trans hla.le, le_rfl⟩
        · exact Or.inr hd
    · rcases hd with hd | hd
      · exact ⟨_, List.mem_cons_self, hd⟩
      · have hin : (a ≤ d ∧ d ≤ a) ∨ d ∈ l := by
          rcases List.mem_cons.mp hd with rfl | hd
          · exact Or.inl ⟨le_rfl, le_rfl⟩
          · exact Or.inr hd
        obtain ⟨r, hr, hmem⟩ := ih le_rfl hrest hin
        exact ⟨r, List.mem_cons_of_mem _ hr, hmem⟩

omit [LinearOrder κ] in
/-- What lies between two runs lies between the neighbours that are not joined. -/
theorem runsFrom_isChain_iff {R : κ → κ → Prop} :
    (runsFrom join first last l).IsChain (fun r r' => R r.2 r'.1)
      ↔ (last :: l).IsChain fun a b => ¬ join a b → R a b := by
  induction l generalizing first last with
  | nil => exact iff_of_true (List.isChain_singleton _) (List.isChain_singleton _)
  | cons a l ih =>
    unfold runsFrom
    rw [List.isChain_cons_cons, ← @ih (if join last a then first else a) a]
    split
    · rename_i hjoin
      exact (and_iff_right fun hnot => absurd hjoin hnot).symm
    · rename_i hnot
      obtain ⟨e, rest, heq⟩ : ∃ e rest, runsFrom join a a l = (a, e) :: rest :=
        runsFrom_eq_cons a a l
      rw [heq, List.isChain_cons_cons]
      exact and_congr_left fun _ => ⟨fun h _ => h, fun h => h hnot⟩

/-- **What lies in a run** lies between neighbours that are joined, or is an element. -/
theorem runsFrom_avoid_iff {days : List κ} (hle : first ≤ last)
    (hsorted : (last :: l).Pairwise (· < ·)) (hl : ∀ a ∈ l, a ∉ days) :
    (∀ r ∈ runsFrom join first last l, ∀ d ∈ days, ¬ (r.1 ≤ d ∧ d ≤ r.2))
      ↔ (∀ d ∈ days, ¬ (first ≤ d ∧ d ≤ last)) ∧
        (last :: l).IsChain fun a b => join a b → ∀ d ∈ days, ¬ (a < d ∧ d < b) := by
  induction l generalizing first last with
  | nil =>
    unfold runsFrom
    rw [List.forall_mem_singleton]
    exact (and_iff_left (List.isChain_singleton _)).symm
  | cons a l ih =>
    obtain ⟨hlast, hrest⟩ := List.pairwise_cons.mp hsorted
    have hla : last < a := hlast a List.mem_cons_self
    obtain ⟨ha, hl⟩ := List.forall_mem_cons.mp hl
    rw [List.isChain_cons_cons]
    unfold runsFrom
    split
    · rename_i hjoin
      rw [ih (hle.trans hla.le) hrest hl, ← and_assoc]
      refine and_congr_left fun _ => ⟨fun h => ⟨?_, fun _ => ?_⟩, fun h d hd hin => ?_⟩
      · exact fun d hd hin => h d hd ⟨hin.1, hin.2.trans hla.le⟩
      · exact fun d hd hin => h d hd ⟨hle.trans hin.1.le, hin.2.le⟩
      · rcases le_or_gt d last with hold | hnew
        · exact h.1 d hd ⟨hin.1, hold⟩
        · have hne : d ≠ a := fun heq => ha (heq ▸ hd)
          exact h.2 hjoin d hd ⟨hnew, lt_of_le_of_ne hin.2 hne⟩
    · rename_i hnot
      rw [List.forall_mem_cons, ih le_rfl hrest hl]
      have hself : ∀ d ∈ days, ¬ (a ≤ d ∧ d ≤ a) := fun d hd hin =>
        ha (le_antisymm hin.1 hin.2 ▸ hd)
      refine and_congr_right fun _ => ⟨fun h => ⟨fun hjoin => absurd hjoin hnot, h.2⟩,
        fun h => ⟨hself, h.2⟩⟩

theorem runs_pairwise (hsorted : l.Pairwise (· < ·)) :
    (runs join l).Pairwise fun r r' => r.2 < r'.1 := by
  cases l with
  | nil => exact List.Pairwise.nil
  | cons a l => exact runsFrom_pairwise le_rfl hsorted

theorem exists_mem_runs {d : κ} (hsorted : l.Pairwise (· < ·)) (hd : d ∈ l) :
    ∃ r ∈ runs join l, r.1 ≤ d ∧ d ≤ r.2 := by
  cases l with
  | nil => exact absurd hd List.not_mem_nil
  | cons a l =>
    refine exists_mem_runsFrom le_rfl hsorted ?_
    rcases List.mem_cons.mp hd with rfl | hd
    · exact Or.inl ⟨le_rfl, le_rfl⟩
    · exact Or.inr hd

theorem ends_of_mem_runs (hsorted : l.Pairwise (· < ·)) (hr : r ∈ runs join l) :
    r.1 ∈ l ∧ r.2 ∈ l ∧ r.1 ≤ r.2 := by
  cases l with
  | nil => exact absurd hr List.not_mem_nil
  | cons a l =>
    obtain ⟨hfirst, hend, hle⟩ := ends_of_mem_runsFrom le_rfl hr hsorted
    refine ⟨?_, ?_, hle⟩
    · exact hfirst.elim (fun h => h ▸ List.mem_cons_self) (List.mem_cons_of_mem a)
    · exact hend.elim (fun h => h ▸ List.mem_cons_self) (List.mem_cons_of_mem a)

omit [LinearOrder κ] in
theorem runs_isChain_iff {R : κ → κ → Prop} :
    (runs join l).IsChain (fun r r' => R r.2 r'.1) ↔ l.IsChain fun a b => ¬ join a b → R a b := by
  cases l with
  | nil => exact iff_of_true List.isChain_nil List.isChain_nil
  | cons a l => exact runsFrom_isChain_iff

theorem runs_avoid_iff {days : List κ} (hsorted : l.Pairwise (· < ·))
    (hl : ∀ a ∈ l, a ∉ days) :
    (∀ r ∈ runs join l, ∀ d ∈ days, ¬ (r.1 ≤ d ∧ d ≤ r.2))
      ↔ l.IsChain fun a b => join a b → ∀ d ∈ days, ¬ (a < d ∧ d < b) := by
  cases l with
  | nil => exact iff_of_true (fun _ h => absurd h List.not_mem_nil) List.isChain_nil
  | cons a l =>
    obtain ⟨ha, hl⟩ := List.forall_mem_cons.mp hl
    refine (runsFrom_avoid_iff le_rfl hsorted hl).trans (and_iff_right fun d hd hin => ?_)
    exact ha (le_antisymm hin.1 hin.2 ▸ hd)

end Runs

/-! ### Neighbours -/

/-- Two relations between neighbours. -/
theorem isChain_and_iff {R S : α → α → Prop} {l : List α} :
    l.IsChain (fun a b => R a b ∧ S a b) ↔ l.IsChain R ∧ l.IsChain S := by
  induction l with
  | nil => exact iff_of_true List.isChain_nil ⟨List.isChain_nil, List.isChain_nil⟩
  | cons a l ih =>
    cases l with
    | nil =>
      exact iff_of_true (List.isChain_singleton a)
        ⟨List.isChain_singleton a, List.isChain_singleton a⟩
    | cons b l =>
      rw [List.isChain_cons_cons, List.isChain_cons_cons, List.isChain_cons_cons, ih]
      exact and_and_and_comm

/-- Neighbours in an increasing list have no element of it between them. -/
theorem isChain_not_between {l : List κ} (hsorted : l.Pairwise (· < ·)) :
    l.IsChain fun a b => ∀ d ∈ l, ¬ (a < d ∧ d < b) := by
  rw [List.isChain_iff_forall_rel_of_append_cons_cons]
  rintro a b l₁ l₂ rfl d hd ⟨had, hdb⟩
  rcases List.mem_append.mp hd with hd | hd
  · have hlt := (List.pairwise_append.mp hsorted).2.2 d hd a List.mem_cons_self
    exact lt_asymm hlt had
  · have hrest := (List.pairwise_append.mp hsorted).2.1
    rcases List.mem_cons.mp hd with rfl | hd
    · exact lt_irrefl _ had
    · rcases List.mem_cons.mp hd with rfl | hd
      · exact lt_irrefl _ hdb
      · have hlt := (List.pairwise_cons.mp (List.pairwise_cons.mp hrest).2).1 d hd
        exact lt_asymm hlt hdb

end Msai.Lib
