import Std.Data.String.ToInt
import Mathlib.Data.Int.ConditionallyCompleteOrder
import Mathlib.Data.Prod.Lex
import Msai.Lib.JsonLoads
import Msai.Lib.Lease
import Msai.Lib.LockOrder
import Msai.Lib.PyDate

namespace Msai.Smoke

open Msai.Lib Msai.Lib.TransitionSystem Msai.Lib.Calendar Msai.Lib.PyDate

/-!
# The ingest locks (`services/smoke/ingest_lock.py`, `services/smoke/runner.py`)

A smoke run takes one Redis key for every symbol and month of its window, one after the other, and
fetches or rebuilds behind them.  The keys expire, and a release deletes a key only if it has the
token of the run.

* `iterMonthStarts`, `buildLockKey` — the months of a window and the keys; `buildLockKey_inj`;
* `ingestSystem` — `_ingest_locks` of any number of runs beside the clock: lost replies, failing
  releases and runs that die included;
* `Held` — what holds in every state: the leases of a run are backed and its tokens its own;
* `ingest_exclusive` — two runs are behind the same symbol and month only if a lease has run out;
* `ingest_noCircularWait` — runs that name their symbols in one order do not wait in a circle.

Dates are day numbers, as in `Msai.Lib.Calendar`.
-/

/-! ### The months of a window -/

/-- The `while` of `_iter_month_starts`, with as many rounds as there may be. -/
def monthLoop (endYear endMonth : ℤ) : ℕ → ℤ → ℤ → List ℤ
  | 0, _, _ => []
  | rounds + 1, year, month =>
    if year < endYear ∨ (year = endYear ∧ month ≤ endMonth) then
      dayNumber year month 1 ::
        if month = 12 then monthLoop endYear endMonth rounds (year + 1) 1
        else monthLoop endYear endMonth rounds year (month + 1)
    else []

/-- `d.year` and `d.month`. -/
def yearOf (d : ℤ) : ℤ := monthOf d / 12

def monthOfYear (d : ℤ) : ℤ := monthOf d % 12 + 1

/-- `_iter_month_starts`. -/
def iterMonthStarts (startDate endDate : ℤ) : List ℤ :=
  if endDate < startDate then []
  else
    monthLoop (yearOf endDate) (monthOfYear endDate) (monthOf endDate - monthOf startDate + 1).toNat
      (yearOf startDate) (monthOfYear startDate)

example : iterMonthStarts (dayNumber 2024 11 30) (dayNumber 2025 1 1) =
    [dayNumber 2024 11 1, dayNumber 2024 12 1, dayNumber 2025 1 1] := by decide +kernel

section Months

variable {endYear endMonth year month : ℤ} {rounds : ℕ} {d startDate endDate : ℤ}

/-- The loop counts the months up: `12 * year + (month - 1)` grows by one in a round. -/
theorem monthLoop_succ (hmonth : 1 ≤ month ∧ month ≤ 12) (hend : 1 ≤ endMonth ∧ endMonth ≤ 12) :
    monthLoop endYear endMonth (rounds + 1) year month =
      if 12 * year + (month - 1) ≤ 12 * endYear + (endMonth - 1) then
        monthStart (12 * year + (month - 1)) ::
          monthLoop endYear endMonth rounds ((12 * year + (month - 1) + 1) / 12)
            ((12 * year + (month - 1) + 1) % 12 + 1)
      else [] := by
  have hguard : (year < endYear ∨ (year = endYear ∧ month ≤ endMonth)) ↔
      12 * year + (month - 1) ≤ 12 * endYear + (endMonth - 1) := by omega
  rw [monthLoop]
  simp only [hguard, dayNumber, sub_self, add_zero]
  by_cases hlast : month = 12
  · have hyear : (12 * year + (month - 1) + 1) / 12 = year + 1 := by omega
    have hnext : (12 * year + (month - 1) + 1) % 12 + 1 = 1 := by omega
    simp [if_pos hlast, hyear, hnext]
  · have hyear : (12 * year + (month - 1) + 1) / 12 = year := by omega
    have hnext : (12 * year + (month - 1) + 1) % 12 + 1 = month + 1 := by omega
    simp [if_neg hlast, hyear, hnext]

/-- The loop from the month `m` on. -/
theorem mem_monthLoop {m : ℤ} (hend : 1 ≤ endMonth ∧ endMonth ≤ 12)
    (hrounds : 12 * endYear + (endMonth - 1) < m + rounds) :
    d ∈ monthLoop endYear endMonth rounds (m / 12) (m % 12 + 1) ↔
      ∃ k, m ≤ k ∧ k ≤ 12 * endYear + (endMonth - 1) ∧ d = monthStart k := by
  induction rounds generalizing m with
  | zero =>
    constructor
    · intro hd
      exact absurd hd List.not_mem_nil
    · rintro ⟨k, hlow, hhigh, _⟩
      omega
  | succ rounds ih =>
    have hm : 12 * (m / 12) + (m % 12 + 1 - 1) = m := by omega
    rw [monthLoop_succ (by omega) hend, hm]
    split
    · rw [List.mem_cons, ih (by omega)]
      constructor
      · rintro (rfl | ⟨k, hlow, hhigh, rfl⟩)
        · exact ⟨m, le_refl m, by assumption, rfl⟩
        · exact ⟨k, by omega, hhigh, rfl⟩
      · rintro ⟨k, hlow, hhigh, rfl⟩
        rcases eq_or_lt_of_le hlow with rfl | hlt
        · exact Or.inl rfl
        · exact Or.inr ⟨k, by omega, hhigh, rfl⟩
    · constructor
      · intro hd
        exact absurd hd List.not_mem_nil
      · rintro ⟨k, hlow, hhigh, _⟩
        omega

theorem monthStart_lt {m m' : ℤ} (h : m < m') : monthStart m < monthStart m' := by
  have hnext := (monthStart_succ m).1
  have hle := monthStart_le (show m + 1 ≤ m' by omega)
  omega

theorem monthOf_monthStart (m : ℤ) : monthOf (monthStart m) = m := by
  obtain ⟨hlow, hhigh⟩ := monthOf_spec (monthStart m)
  apply le_antisymm
  · by_contra hlt
    have := monthStart_lt (show m < monthOf (monthStart m) by omega)
    omega
  · by_contra hlt
    have := monthStart_le (show monthOf (monthStart m) + 1 ≤ m by omega)
    omega

/-- The list has the first day of each month that the window meets. -/
theorem mem_iterMonthStarts (h : startDate ≤ endDate) :
    d ∈ iterMonthStarts startDate endDate ↔
      ∃ k, monthOf startDate ≤ k ∧ k ≤ monthOf endDate ∧ d = monthStart k := by
  have hmono := monthOf_mono h
  have hlast : 12 * yearOf endDate + (monthOfYear endDate - 1) = monthOf endDate := by
    unfold yearOf monthOfYear
    omega
  have hmonths : d ∈ monthLoop (yearOf endDate) (monthOfYear endDate)
      (monthOf endDate - monthOf startDate + 1).toNat (monthOf startDate / 12)
      (monthOf startDate % 12 + 1) ↔ _ :=
    mem_monthLoop (by unfold monthOfYear; omega) (by rw [hlast]; omega)
  rw [hlast] at hmonths
  rwa [iterMonthStarts, if_neg (by omega)]

/-- A day of the window lies in a month of the list. -/
theorem monthStart_mem_iterMonthStarts (hlow : startDate ≤ d) (hhigh : d ≤ endDate) :
    monthStart (monthOf d) ∈ iterMonthStarts startDate endDate :=
  (mem_iterMonthStarts (by omega)).mpr ⟨monthOf d, monthOf_mono hlow, monthOf_mono hhigh, rfl⟩

theorem pairwise_monthLoop {m : ℤ} (hend : 1 ≤ endMonth ∧ endMonth ≤ 12)
    (hrounds : 12 * endYear + (endMonth - 1) < m + rounds) :
    (monthLoop endYear endMonth rounds (m / 12) (m % 12 + 1)).Pairwise fun d d' =>
      monthOf d < monthOf d' := by
  induction rounds generalizing m with
  | zero => exact List.Pairwise.nil
  | succ rounds ih =>
    have hm : 12 * (m / 12) + (m % 12 + 1 - 1) = m := by omega
    rw [monthLoop_succ (by omega) hend, hm]
    split
    · refine List.pairwise_cons.mpr ⟨fun d hd => ?_, ih (by omega)⟩
      obtain ⟨k, hlow, _, rfl⟩ := (mem_monthLoop hend (by omega)).mp hd
      rw [monthOf_monthStart, monthOf_monthStart]
      omega
    · exact List.Pairwise.nil

/-- The months come in their order. -/
theorem pairwise_iterMonthStarts (startDate endDate : ℤ) :
    (iterMonthStarts startDate endDate).Pairwise fun d d' => monthOf d < monthOf d' := by
  unfold iterMonthStarts
  split
  · exact List.Pairwise.nil
  · have hlast : 12 * yearOf endDate + (monthOfYear endDate - 1) = monthOf endDate := by
      unfold yearOf monthOfYear
      omega
    apply pairwise_monthLoop
    · unfold monthOfYear
      omega
    · rw [hlast]
      omega

end Months

/-! ### The keys -/

def ingestLockKeyPrefix : String := "smoke:ingest:"

/-- `d.strftime("%Y-%m")`, where years are not padded. -/
def yearMonth (d : ℤ) : List Char :=
  (toString (yearOf d)).toList ++ '-' :: twoDigits (monthOfYear d).toNat

/-- `_build_lock_key`. -/
def buildLockKey (symbol : String) (windowStart : ℤ) : String :=
  ingestLockKeyPrefix ++ symbol ++ ":" ++ String.ofList (yearMonth windowStart)

example : buildLockKey "AAPL" (dayNumber 2024 12 1) = "smoke:ingest:AAPL:2024-12" := by
  decide +kernel

/-- A text is cut at its last colon in one way. -/
theorem append_cons_inj {front front' rest rest' : List Char} {c : Char} (hrest : c ∉ rest)
    (hrest' : c ∉ rest') (h : front ++ c :: rest = front' ++ c :: rest') :
    front = front' ∧ rest = rest' := by
  have hsplit : splitOnce c (rest.reverse ++ c :: front.reverse) =
      some (rest.reverse, front.reverse) := splitOnce_append (List.mem_reverse.not.mpr hrest)
  have hsplit' : splitOnce c (rest'.reverse ++ c :: front'.reverse) =
      some (rest'.reverse, front'.reverse) := splitOnce_append (List.mem_reverse.not.mpr hrest')
  have hreverse := congrArg List.reverse h
  simp only [List.reverse_append, List.reverse_cons, List.append_assoc, List.cons_append,
    List.nil_append] at hreverse
  rw [hreverse, hsplit', Option.some.injEq, Prod.mk.injEq] at hsplit
  exact ⟨(List.reverse_injective hsplit.2).symm, (List.reverse_injective hsplit.1).symm⟩

theorem colon_not_mem_yearMonth (d : ℤ) : ':' ∉ yearMonth d := by
  intro hmem
  rcases List.mem_append.mp hmem with hyear | hmonth
  · rw [JsonLoads.toList_toString] at hyear
    rcases List.mem_append.mp hyear with hsign | hdigits
    · split at hsign
      · exact absurd hsign (by decide)
      · cases hsign
    · exact absurd (JsonLoads.mem_toDigits hdigits) (by decide)
  · rcases List.mem_cons.mp hmonth with hdash | hdigits
    · exact absurd hdash (by decide)
    · refine absurd (isDigit_twoDigits ?_ hdigits) (by decide)
      unfold monthOfYear
      omega

theorem yearMonth_inj {d d' : ℤ} (h : yearMonth d = yearMonth d') : monthOf d = monthOf d' := by
  unfold yearMonth at h
  -- the month has two digits, so the texts of the years end at one place
  obtain ⟨hyear, hmonth⟩ := List.append_inj' h (by simp [twoDigits])
  have hyears : yearOf d = yearOf d' := Int.repr_injective (String.toList_inj.mp hyear)
  have hmonths := twoDigits_inj (by unfold monthOfYear; omega) (by unfold monthOfYear; omega)
    (List.cons.inj hmonth).2
  unfold yearOf at hyears
  unfold monthOfYear at hmonths
  omega

/-- Two places have one key only if they have one symbol and one month. -/
theorem buildLockKey_inj {symbol symbol' : String} {d d' : ℤ}
    (h : buildLockKey symbol d = buildLockKey symbol' d') :
    symbol = symbol' ∧ monthOf d = monthOf d' := by
  have hlist := congrArg String.toList h
  simp only [buildLockKey, String.toList_append, String.toList_ofList, List.append_assoc] at hlist
  obtain ⟨hsymbol, hmonth⟩ := append_cons_inj (colon_not_mem_yearMonth d)
    (colon_not_mem_yearMonth d') (List.append_cancel_left hlist)
  exact ⟨String.toList_inj.mp hsymbol, yearMonth_inj hmonth⟩

/-! ### The runs -/

/-- `secrets.token_hex(16)` does not come twice: a token is named by the run that has drawn it, and
    by how many locks the run had by then. -/
structure Token where
  run : ℕ
  serial : ℕ
deriving DecidableEq, Repr

/-- What `_ingest_locks` asks of the locks. -/
def ttlSeconds : ℕ := 3600

def waitTimeoutSeconds : ℕ := 600

/-- `_POLL_INTERVAL_SECONDS`, in milliseconds. -/
def pollIntervalMs : ℕ := 500

/-- A triple of `tokens`, with the time of its SET. -/
structure Holding where
  symbol : String
  monthStart : ℤ
  token : Token
  setAt : ℕ
deriving DecidableEq, Repr

def Holding.place (h : Holding) : String × ℤ := (h.symbol, h.monthStart)

def Holding.lease (h : Holding) : Lease String Token :=
  .claimed h.setAt (buildLockKey h.symbol h.monthStart) h.token ttlSeconds

/-- Where a run is in `_ingest_locks`. -/
inductive Stage
  /-- In `acquire_ingest_lock`, up to its deadline; the next SET follows the sleep. -/
  | acquiring (deadline wakeAt : ℕ)
  /-- At the `yield`. -/
  | inside
  /-- In the `finally`. -/
  | releasing
  | died
deriving DecidableEq, Repr

/-- The arguments of `_ingest_locks`, the locks that its loops have yet to take, and `tokens`. -/
structure IngestRun where
  symbols : List String
  startDate : ℤ
  endDate : ℤ
  pending : List (String × ℤ)
  tokens : List Holding
  stage : Stage
deriving DecidableEq, Repr

/-- The two loops of `_ingest_locks`. -/
def lockPlaces (symbols : List String) (startDate endDate : ℤ) : List (String × ℤ) :=
  symbols.flatMap fun symbol => (iterMonthStarts startDate endDate).map (symbol, ·)

/-- The next call of `acquire_ingest_lock`, which tries at once, or the `yield`. -/
def Stage.next (now : ℕ) : List (String × ℤ) → Stage
  | [] => .inside
  | _ :: _ => .acquiring (now + 1000 * waitTimeoutSeconds) now

/-- Redis and its clock (milliseconds), the runs, and which run has removed which token. -/
structure IngestSite where
  now : ℕ
  store : KeyValue String Token
  runs : List IngestRun
  removals : List (ℕ × Token)

def IngestSite.initial : IngestSite where
  now := 0
  store := KeyValue.empty
  runs := []
  removals := []

inductive IngestLabel
  | tick (ms : ℕ)
  | enter (symbols : List String) (startDate endDate : ℤ)
  /-- A SET of `acquire_ingest_lock`. -/
  | set (i : ℕ)
  /-- The acquisition raises: the run is cancelled, or the reply to a SET is lost that Redis may
      have executed. -/
  | raise (i : ℕ) (executed : Bool)
  /-- The body ends, or raises. -/
  | leave (i : ℕ)
  /-- `release_ingest_lock` of the first triple left: Redis executes the script, or the call fails
      and its exception is swallowed. -/
  | release (i : ℕ) (executed : Bool)
  | die (i : ℕ)
deriving DecidableEq, Repr

/-- Run `i` moves on. -/
def IngestSite.setRun (s : IngestSite) (i : ℕ) (r : IngestRun) : IngestSite :=
  { s with runs := s.runs.set i r }

/-- The first lock to take is taken. -/
def IngestRun.acquired (r : IngestRun) (i now : ℕ) (symbol : String) (monthStart : ℤ)
    (rest : List (String × ℤ)) : IngestRun :=
  { r with
    pending := rest
    tokens := r.tokens ++ [⟨symbol, monthStart, ⟨i, r.tokens.length⟩, now⟩]
    stage := .next now rest }

/-- The script, and the token that it has found and removed. -/
def IngestSite.compareAndDelete (s : IngestSite) (i : ℕ) (h : Holding) : IngestSite :=
  match s.store.compareAndDelete s.now h.lease.key h.token with
  | (true, store) =>
    { s with
      store := store
      removals := s.removals ++ ((s.store.get s.now h.lease.key).map (i, ·)).toList }
  | (false, _) => s

def ingestStep (s : IngestSite) : IngestLabel → Option IngestSite
  | .tick ms => some { s with now := s.now + ms }
  | .enter symbols startDate endDate =>
    let places := lockPlaces symbols startDate endDate
    some
      { s with runs := s.runs ++ [⟨symbols, startDate, endDate, places, [], .next s.now places⟩] }
  | .set i =>
    s.runs[i]?.bind fun r =>
      match r.stage, r.pending with
      | .acquiring deadline wakeAt, (symbol, monthStart) :: rest =>
        if s.now < wakeAt then none
        else
          match s.store.setNx s.now (buildLockKey symbol monthStart) ⟨i, r.tokens.length⟩
            ttlSeconds with
          | (true, store) =>
            some ({ s with store := store }.setRun i (r.acquired i s.now symbol monthStart rest))
          | (false, _) =>
            -- `IngestLockTimeoutError`, or another round
            if deadline ≤ s.now then some (s.setRun i { r with stage := .releasing })
            else
              some (s.setRun i { r with stage := .acquiring deadline (s.now + pollIntervalMs) })
      | _, _ => none
  | .raise i executed =>
    s.runs[i]?.bind fun r =>
      match r.stage, r.pending with
      | .acquiring _ _, (symbol, monthStart) :: _ =>
        let store :=
          if executed then
            (s.store.setNx s.now (buildLockKey symbol monthStart) ⟨i, r.tokens.length⟩
              ttlSeconds).2
          else s.store
        some ({ s with store := store }.setRun i { r with stage := .releasing })
      | _, _ => none
  | .leave i =>
    s.runs[i]?.bind fun r =>
      if r.stage = .inside then some (s.setRun i { r with stage := .releasing }) else none
  | .release i executed =>
    s.runs[i]?.bind fun r =>
      match r.stage, r.tokens with
      | .releasing, h :: rest =>
        some ((if executed then s.compareAndDelete i h else s).setRun i { r with tokens := rest })
      | _, _ => none
  | .die i => s.runs[i]?.map fun r => s.setRun i { r with stage := .died }

/-- Smoke runs that ingest side by side. -/
def ingestSystem : TransitionSystem IngestSite IngestLabel := ⟨ingestStep⟩

/-! ### What holds in every state -/

/-- The run has not left the `try`. -/
def Stage.taking : Stage → Bool
  | .acquiring _ _ | .inside => true
  | .releasing | .died => false

/-- The tokens of a run are its own and no two of them the same.  Up to the `finally`, what it has
    and what it has yet to take are the places of its loops. -/
structure IngestRun.Own (i : ℕ) (r : IngestRun) : Prop where
  own : ∀ h ∈ r.tokens, h.token.run = i
  distinct : r.tokens.Pairwise fun h h' => h.token ≠ h'.token
  serials : r.stage.taking = true → ∀ h ∈ r.tokens, h.token.serial < r.tokens.length
  places : r.stage.taking = true →
    r.tokens.map Holding.place ++ r.pending = lockPlaces r.symbols r.startDate r.endDate
  inside : r.stage = .inside → r.pending = []

/-- The releases have removed nothing but own tokens, and a lease of a run that has not run out is
    what Redis has. -/
structure Held (s : IngestSite) : Prop where
  removals : ∀ r ∈ s.removals, r.2.run = r.1
  own : ∀ {i : ℕ} {r : IngestRun}, s.runs[i]? = some r → r.Own i
  backed : ∀ {i : ℕ} {r : IngestRun} {h : Holding}, s.runs[i]? = some r → h ∈ r.tokens →
    h.lease.Backed s.store s.now

section Step

variable {s t : IngestSite} {a : IngestLabel} {i j now : ℕ} {r r' : IngestRun} {h h' : Holding}
  {symbol : String} {month : ℤ} {rest : List (String × ℤ)} {rest' : List Holding}
  {stage : Stage}

theorem Stage.nil_of_next {places : List (String × ℤ)} (h : Stage.next now places = .inside) :
    places = [] := by
  cases places with
  | nil => rfl
  | cons _ _ => cases h

theorem IngestRun.Own.entered {symbols : List String} {startDate endDate : ℤ} :
    IngestRun.Own i ⟨symbols, startDate, endDate, lockPlaces symbols startDate endDate, [],
      .next now (lockPlaces symbols startDate endDate)⟩ where
  own _ hh := absurd hh List.not_mem_nil
  distinct := List.Pairwise.nil
  serials _ _ hh := absurd hh List.not_mem_nil
  places _ := rfl
  inside := Stage.nil_of_next

/-- One more token, with a serial number that the run has not had. -/
theorem IngestRun.Own.acquired (hr : r.Own i) (htaking : r.stage.taking = true)
    (hpending : r.pending = (symbol, month) :: rest) :
    (r.acquired i now symbol month rest).Own i where
  own := by
    intro h hh
    rcases List.mem_append.mp hh with hh | hh
    · exact hr.own h hh
    · rw [List.mem_singleton.mp hh]
  distinct := by
    refine List.pairwise_append.mpr ⟨hr.distinct, List.pairwise_singleton _ _, ?_⟩
    intro h hh h' hh' heq
    have hserial := hr.serials htaking h hh
    rw [heq, List.mem_singleton.mp hh'] at hserial
    exact absurd hserial (Nat.lt_irrefl _)
  serials := by
    intro _ h hh
    show h.token.serial < (r.tokens ++ [_]).length
    rw [List.length_append, List.length_singleton]
    rcases List.mem_append.mp hh with hh | hh
    · exact Nat.lt_succ_of_lt (hr.serials htaking h hh)
    · rw [List.mem_singleton.mp hh]
      exact Nat.lt_succ_self _
  places := by
    intro _
    show (r.tokens ++ [_]).map Holding.place ++ rest = _
    rw [List.map_append, List.append_assoc]
    show r.tokens.map Holding.place ++ (symbol, month) :: rest = _
    rw [← hpending, hr.places htaking]
    rfl
  inside := Stage.nil_of_next

/-- A run leaves the `try` with the tokens that it has. -/
theorem IngestRun.Own.left (hr : r.Own i) (hstage : stage.taking = false) :
    IngestRun.Own i { r with stage := stage } where
  own := hr.own
  distinct := hr.distinct
  serials htaking := absurd (hstage.symm.trans htaking) (by decide)
  places htaking := absurd (hstage.symm.trans htaking) (by decide)
  inside hinside := by
    have hinside : stage = .inside := hinside
    rw [hinside] at hstage
    cases hstage

theorem IngestRun.Own.slept (hr : r.Own i) (htaking : r.stage.taking = true) {d w : ℕ} :
    IngestRun.Own i { r with stage := .acquiring d w } where
  own := hr.own
  distinct := hr.distinct
  serials _ := hr.serials htaking
  places _ := hr.places htaking
  inside hinside := nomatch hinside

theorem IngestRun.Own.released (hr : r.Own i) (htokens : r.tokens = h :: rest')
    (hstage : r.stage = .releasing) : IngestRun.Own i { r with tokens := rest' } where
  own h' hh' := hr.own h' (htokens ▸ List.mem_cons_of_mem h hh')
  distinct := (List.pairwise_cons.mp (htokens ▸ hr.distinct)).2
  serials htaking := by
    have htaking : r.stage.taking = true := htaking
    rw [hstage] at htaking
    cases htaking
  places htaking := by
    have htaking : r.stage.taking = true := htaking
    rw [hstage] at htaking
    cases htaking
  inside := hr.inside

theorem Held.initial : Held .initial where
  removals r hr := absurd hr List.not_mem_nil
  own h := by simp [IngestSite.initial] at h
  backed h := by simp [IngestSite.initial] at h

/-- One run moves on, beside a command that backs its leases and those of the others. -/
theorem Held.setRun (hs : Held s) {store : KeyValue String Token} {removals : List (ℕ × Token)}
    (hremovals : ∀ r ∈ removals, r.2.run = r.1) (hr' : r'.Own i)
    (hbacked : ∀ h ∈ r'.tokens, h.lease.Backed store s.now)
    (hothers : ∀ {j : ℕ} {r : IngestRun} {h : Holding}, j ≠ i → s.runs[j]? = some r →
      h ∈ r.tokens → h.lease.Backed store s.now) :
    Held { s with store := store, runs := s.runs.set i r', removals := removals } where
  removals := hremovals
  own := by
    intro j r hj
    rcases getElem?_set_cases hj with ⟨rfl, rfl⟩ | ⟨_, hj⟩
    · exact hr'
    · exact hs.own hj
  backed := by
    intro j r h hj hh
    rcases getElem?_set_cases hj with ⟨rfl, rfl⟩ | ⟨hne, hj⟩
    · exact hbacked h hh
    · exact hothers hne hj hh

/-- The run has the same tokens or fewer, and Redis is not asked. -/
theorem Held.moved (hs : Held s) (hr : s.runs[i]? = some r) (hr' : r'.Own i)
    (htokens : ∀ h ∈ r'.tokens, h ∈ r.tokens) : Held (s.setRun i r') :=
  hs.setRun hs.removals hr' (fun h hh => hs.backed hr (htokens h hh)) fun _ hj hh => hs.backed hj hh

/-- A claim of another key or of a taken one leaves the leases alone. -/
theorem Held.claimed (hs : Held s) (key : String) (token : Token) (ex : ℕ) :
    Held { s with store := (s.store.setNx s.now key token ex).2 } where
  removals := hs.removals
  own := hs.own
  backed hr hh := (hs.backed hr hh).setNx

/-- The script removes the token of the release, which no other lease has. -/
theorem Held.released (hs : Held s) (hr : s.runs[i]? = some r) (htokens : r.tokens = h :: rest')
    (hstage : r.stage = .releasing) :
    Held ((s.compareAndDelete i h).setRun i { r with tokens := rest' }) := by
  have hown := hs.own hr
  have hi : h.token.run = i := hown.own h (htokens ▸ List.mem_cons_self)
  have hkept : ∀ h' : Holding, h'.lease.Backed s.store s.now → h'.token ≠ h.token →
      h'.lease.Backed (s.store.compareAndDelete s.now h.lease.key h.token).2 s.now :=
    fun h' hbacked hne => hbacked.compareAndDelete fun _ => hne
  have hcases : (∃ store, s.store.compareAndDelete s.now h.lease.key h.token = (true, store) ∧
        s.store.get s.now h.lease.key = some h.token) ∨
      s.store.compareAndDelete s.now h.lease.key h.token = (false, s.store) := by
    unfold KeyValue.compareAndDelete
    split
    · rename_i hget
      exact Or.inl ⟨_, rfl, hget⟩
    · exact Or.inr rfl
  rcases hcases with ⟨store, hdelete, hget⟩ | hdelete
  · rw [hdelete] at hkept
    have hsite : s.compareAndDelete i h =
        { s with store := store, removals := s.removals ++ [(i, h.token)] } := by
      rw [IngestSite.compareAndDelete, hdelete, hget]
      rfl
    rw [hsite]
    apply hs.setRun
    · intro p hp
      rcases List.mem_append.mp hp with hp | hp
      · exact hs.removals p hp
      · rw [List.mem_singleton.mp hp]
        exact hi
    · exact hown.released htokens hstage
    · intro h' hh'
      have hdistinct := (List.pairwise_cons.mp (htokens ▸ hown.distinct)).1 h' hh'
      exact hkept h' (hs.backed hr (htokens ▸ List.mem_cons_of_mem h hh')) (Ne.symm hdistinct)
    · intro j r' h' hne hj hh'
      apply hkept h' (hs.backed hj hh')
      intro heq
      exact hne (((hs.own hj).own h' hh').symm.trans (heq ▸ hi))
  · have hsite : s.compareAndDelete i h = s := by
      rw [IngestSite.compareAndDelete, hdelete]
    rw [hsite]
    exact hs.moved hr (hown.released htokens hstage) fun h' hh' =>
      htokens ▸ List.mem_cons_of_mem h hh'

/-- A SET of an acquisition. -/
theorem Held.set (hs : Held s) (h : ingestStep s (.set i) = some t) : Held t := by
  obtain ⟨r, hr, h⟩ := Option.bind_eq_some_iff.mp h
  split at h
  · rename_i deadline wakeAt symbol monthStart rest hstage hpending
    have htaking : r.stage.taking = true := by rw [hstage]; rfl
    split at h
    · cases h
    · have hclaimed := hs.claimed (buildLockKey symbol monthStart) ⟨i, r.tokens.length⟩ ttlSeconds
      have hnew := @Lease.backed_of_setNx _ _ s.store s.now (buildLockKey symbol monthStart)
        ⟨i, r.tokens.length⟩ _ ttlSeconds
      split at h
      · rename_i store hset
        rw [hset] at hclaimed hnew
        obtain rfl := Option.some.inj h
        apply hclaimed.setRun hs.removals ((hs.own hr).acquired htaking hpending)
        · intro h hh
          rcases List.mem_append.mp hh with hh | hh
          · exact hclaimed.backed hr hh
          · rw [List.mem_singleton.mp hh]
            exact hnew rfl
        · intro j r' h' _ hj hh'
          exact hclaimed.backed hj hh'
      · split at h
        · obtain rfl := Option.some.inj h
          exact hs.moved hr ((hs.own hr).left rfl) fun _ hh => hh
        · obtain rfl := Option.some.inj h
          exact hs.moved hr ((hs.own hr).slept htaking) fun _ hh => hh
  · cases h

/-- **Step.** -/
theorem Held.step (hs : Held s) (h : ingestStep s a = some t) : Held t := by
  cases a with
  | tick ms =>
    obtain rfl := Option.some.inj h
    exact ⟨hs.removals, hs.own, fun hr hh => (hs.backed hr hh).later (Nat.le_add_right _ _)⟩
  | enter symbols startDate endDate =>
    obtain rfl := Option.some.inj h
    refine ⟨hs.removals, ?_, ?_⟩
    · intro i r hr
      rcases getElem?_concat_cases hr with ⟨_, rfl⟩ | hr
      · exact .entered
      · exact hs.own hr
    · intro i r h hr hh
      rcases getElem?_concat_cases hr with ⟨_, rfl⟩ | hr
      · exact absurd hh List.not_mem_nil
      · exact hs.backed hr hh
  | set i => exact hs.set h
  | raise i executed =>
    obtain ⟨r, hr, h⟩ := Option.bind_eq_some_iff.mp h
    split at h
    · obtain rfl := Option.some.inj h
      cases executed with
      | false => exact hs.moved hr ((hs.own hr).left rfl) fun _ hh => hh
      | true => exact (hs.claimed _ _ _).moved hr ((hs.own hr).left rfl) fun _ hh => hh
    · cases h
  | leave i =>
    obtain ⟨r, hr, h⟩ := Option.bind_eq_some_iff.mp h
    split at h
    · obtain rfl := Option.some.inj h
      exact hs.moved hr ((hs.own hr).left rfl) fun _ hh => hh
    · cases h
  | release i executed =>
    obtain ⟨r, hr, h⟩ := Option.bind_eq_some_iff.mp h
    split at h
    · rename_i h₀ rest hstage htokens
      obtain rfl := Option.some.inj h
      cases executed with
      | false =>
        exact hs.moved hr ((hs.own hr).released htokens hstage) fun h' hh' =>
          htokens ▸ List.mem_cons_of_mem h₀ hh'
      | true => exact hs.released hr htokens hstage
    · cases h
  | die i =>
    obtain ⟨r, hr, rfl⟩ := Option.map_eq_some_iff.mp h
    exact hs.moved hr ((hs.own hr).left rfl) fun _ hh => hh

/-- **Run.** -/
theorem Held.run {C : IngestSite → IngestLabel → Prop} {as : List IngestLabel}
    (h : Path ingestSystem C .initial as s) : Held s :=
  h.invariant (fun _ _ _ hs _ hstep => hs.step hstep) .initial

/-- A run at the `yield` has a lock for each symbol and each day of its window. -/
theorem Held.covers {d : ℤ} (hs : Held s) (hr : s.runs[i]? = some r) (hinside : r.stage = .inside)
    (hsymbol : symbol ∈ r.symbols) (hd : r.startDate ≤ d ∧ d ≤ r.endDate) :
    ∃ h ∈ r.tokens, h.symbol = symbol ∧ h.monthStart = monthStart (monthOf d) := by
  have hown := hs.own hr
  have hplaces := hown.places (by rw [hinside]; rfl)
  rw [hown.inside hinside, List.append_nil] at hplaces
  have hmem : (symbol, monthStart (monthOf d)) ∈ r.tokens.map Holding.place := by
    rw [hplaces]
    exact List.mem_flatMap.mpr ⟨symbol, hsymbol,
      List.mem_map.mpr ⟨_, monthStart_mem_iterMonthStarts hd.1 hd.2, rfl⟩⟩
  obtain ⟨h, hh, hplace⟩ := List.mem_map.mp hmem
  exact ⟨h, hh, (Prod.mk.inj hplace).1, (Prod.mk.inj hplace).2⟩

/-- Two runs that hold one key have one lease at most that has not run out. -/
theorem Held.exclusive (hs : Held s) (hr : s.runs[i]? = some r) (hr' : s.runs[j]? = some r')
    (hh : h ∈ r.tokens) (hh' : h' ∈ r'.tokens) (hkey : h.lease.key = h'.lease.key)
    (hrunning : h.lease.Running s.now) (hrunning' : h'.lease.Running s.now) : i = j := by
  have hlease := (hs.backed hr hh).unique (hs.backed hr' hh') hkey hrunning hrunning'
  have htoken : h.token = h'.token := congrArg (fun l => l.slot.value) hlease
  rw [← (hs.own hr).own h hh, htoken, (hs.own hr').own h' hh']

theorem Holding.running_iff (h : Holding) :
    h.lease.Running now ↔ now < h.setAt + 1000 * ttlSeconds :=
  decide_eq_true_iff

end Step

/-- **Ingests exclude each other.**  However any number of smoke runs interleave, die or lose
    replies: no release removes the token of another run, and where two runs are at the `yield`
    with a symbol in common and a day in both windows, one of them has taken its lock for that
    month an hour ago or more. -/
theorem ingest_exclusive {as : List IngestLabel} {s : IngestSite}
    (hrun : Path ingestSystem anyStep .initial as s) :
    (∀ p ∈ s.removals, p.2.run = p.1) ∧
    ∀ (i j : ℕ) (r r' : IngestRun), i ≠ j → s.runs[i]? = some r → s.runs[j]? = some r' →
      r.stage = .inside → r'.stage = .inside →
      ∀ symbol ∈ r.symbols, symbol ∈ r'.symbols →
      ∀ d, r.startDate ≤ d ∧ d ≤ r.endDate → r'.startDate ≤ d ∧ d ≤ r'.endDate →
        ∃ h h' : Holding, h ∈ r.tokens ∧ h' ∈ r'.tokens ∧
          h.place = (symbol, monthStart (monthOf d)) ∧ h'.place = h.place ∧
          (h.setAt + 1000 * ttlSeconds ≤ s.now ∨ h'.setAt + 1000 * ttlSeconds ≤ s.now) := by
  have hs := Held.run hrun
  refine ⟨hs.removals, ?_⟩
  intro i j r r' hne hr hr' hinside hinside' symbol hsymbol hsymbol' d hd hd'
  obtain ⟨h, hh, hsym, hmonth⟩ := hs.covers hr hinside hsymbol hd
  obtain ⟨h', hh', hsym', hmonth'⟩ := hs.covers hr' hinside' hsymbol' hd'
  have hplace : h.place = (symbol, monthStart (monthOf d)) := by rw [Holding.place, hsym, hmonth]
  have hplace' : h'.place = h.place := by rw [hplace, Holding.place, hsym', hmonth']
  refine ⟨h, h', hh, hh', hplace, hplace', ?_⟩
  by_contra hrunning
  obtain ⟨hlive, hlive'⟩ := not_or.mp hrunning
  have hkey : h.lease.key = h'.lease.key := by
    show buildLockKey h.symbol h.monthStart = buildLockKey h'.symbol h'.monthStart
    rw [hsym, hmonth, hsym', hmonth']
  exact hne (hs.exclusive hr hr' hh hh' hkey (h.running_iff.mpr (by omega))
    (h'.running_iff.mpr (by omega)))

/-- Run 0 ingests December behind run 1's wait for `AAPL`, and run 1 goes in when run 0 is gone an
    hour later without its release. -/
def leaseOfAnHour : List IngestLabel :=
  [.enter ["AAPL"] (dayNumber 2024 12 1) (dayNumber 2024 12 31), .set 0, .tick 3500000,
    .enter ["AAPL"] (dayNumber 2024 12 24) (dayNumber 2025 1 2), .set 1, .tick 100000, .set 1,
    .set 1]

/-- A run that outlives its lease shares December with the next one. -/
theorem ingest_exclusive_hour : ∃ s : IngestSite,
    (∀ p ∈ s.removals, p.2.run = p.1) ∧ ∃ h h' : Holding,
      h.place = ("AAPL", dayNumber 2024 12 1) ∧ h'.place = h.place ∧
      (h.setAt + 1000 * ttlSeconds ≤ s.now ∨ h'.setAt + 1000 * ttlSeconds ≤ s.now) := by
  have hend : ∃ s ∈ ingestSystem.run .initial leaseOfAnHour, ∃ r ∈ s.runs[0]?, ∃ r' ∈ s.runs[1]?,
      (r.stage = .inside ∧ r'.stage = .inside) ∧ ("AAPL" ∈ r.symbols ∧ "AAPL" ∈ r'.symbols) ∧
      (r.startDate ≤ dayNumber 2024 12 25 ∧ dayNumber 2024 12 25 ≤ r.endDate) ∧
      (r'.startDate ≤ dayNumber 2024 12 25 ∧ dayNumber 2024 12 25 ≤ r'.endDate) := by
    decide +kernel
  obtain ⟨s, hrun, r, hr, r', hr', hinside, hsymbols, hd, hd'⟩ := hend
  obtain ⟨hremovals, hexclusive⟩ := ingest_exclusive (Path.of_run hrun)
  obtain ⟨h, h', _, _, hplace, hplace', hold⟩ := hexclusive 0 1 r r' (by decide) hr hr' hinside.1
    hinside.2 "AAPL" hsymbols.1 hsymbols.2 (dayNumber 2024 12 25) hd hd'
  refine ⟨s, hremovals, h, h', hplace.trans ?_, hplace', hold⟩
  decide +kernel

/-! ### Waiting -/

/-- Run `i` polls for a key that run `j` has, by a lease that has not run out.  The claim on a key
    is not re-entrant: a run that polls for a key of its own waits for itself. -/
def WaitsForLease (s : IngestSite) (i j : ℕ) : Prop :=
  ∃ r r' place rest h, s.runs[i]? = some r ∧ s.runs[j]? = some r' ∧
    (∃ deadline wakeAt, r.stage = .acquiring deadline wakeAt) ∧ r.pending = place :: rest ∧
    h ∈ r'.tokens ∧ h.lease.Running s.now ∧ h.lease.key = buildLockKey place.1 place.2

/-- The symbols of a run are some of a list, in its order. -/
def InSymbolOrder (order : List String) (_ : IngestSite) : IngestLabel → Prop
  | .enter symbols _ _ => symbols.Sublist order
  | _ => True

instance (order : List String) (s : IngestSite) (a : IngestLabel) :
    Decidable (InSymbolOrder order s a) := by
  unfold InSymbolOrder
  split <;> infer_instance

section Waiting

variable {order : List String} {s t : IngestSite} {a : IngestLabel} {i j : ℕ} {r : IngestRun}

/-- The places by the order of the symbols and by the calendar. -/
def placeOrder (order : List String) : LockOrder (String × ℤ) (ℕ ×ₗ ℤ) where
  guardedBy _ := none
  rank place := toLex (order.idxOf place.1, place.2)

/-- What the key of a place is made of: the symbol and the month. -/
def keyed (place : String × ℤ) : String × ℤ := (place.1, monthOf place.2)

/-- A run as a transaction: the leases that have not run out, and the locks it has yet to take. -/
def IngestRun.transaction (now : ℕ) (r : IngestRun) : Transaction (String × ℤ) where
  held := (r.tokens.filter fun h => h.lease.Running now).map fun h => keyed h.place
  pending := if r.stage.taking then r.pending.map keyed else []
  waiting := r.stage.taking

theorem buildLockKey_congr {place place' : String × ℤ} (h : keyed place = keyed place') :
    buildLockKey place.1 place.2 = buildLockKey place'.1 place'.2 := by
  obtain ⟨hsymbol, hmonth⟩ := Prod.mk.inj h
  simp only [buildLockKey, yearMonth, yearOf, monthOfYear, hsymbol, hmonth]

theorem keyed_inj {place place' : String × ℤ}
    (h : buildLockKey place.1 place.2 = buildLockKey place'.1 place'.2) :
    keyed place = keyed place' := by
  obtain ⟨hsymbol, hmonth⟩ := buildLockKey_inj h
  rw [keyed, keyed, hsymbol, hmonth]

theorem idxOf_pairwise (horder : order.Nodup) :
    order.Pairwise fun a b => order.idxOf a < order.idxOf b := by
  rw [List.pairwise_iff_getElem]
  intro m n hm hn hlt
  rwa [horder.idxOf_getElem, horder.idxOf_getElem]

/-- The two loops go up in the order of the places. -/
theorem pairwise_lockPlaces {symbols : List String} (horder : order.Nodup)
    (hsub : symbols.Sublist order) (startDate endDate : ℤ) :
    (lockPlaces symbols startDate endDate).Pairwise fun k k' =>
      (placeOrder order).rank (keyed k) < (placeOrder order).rank (keyed k') := by
  refine List.pairwise_flatMap.mpr ⟨fun symbol _ => ?_, ?_⟩
  · refine List.pairwise_map.mpr ((pairwise_iterMonthStarts startDate endDate).imp ?_)
    intro d d' hlt
    exact Prod.Lex.toLex_lt_toLex.mpr (Or.inr ⟨rfl, hlt⟩)
  · refine ((idxOf_pairwise horder).sublist hsub).imp ?_
    intro symbol symbol' hlt k hk k' hk'
    obtain ⟨d, _, rfl⟩ := List.mem_map.mp hk
    obtain ⟨d', _, rfl⟩ := List.mem_map.mp hk'
    exact Prod.Lex.toLex_lt_toLex.mpr (Or.inl hlt)

/-- The runs have named their symbols in order. -/
def Ordered (order : List String) (s : IngestSite) : Prop :=
  ∀ r ∈ s.runs, r.symbols.Sublist order

theorem Ordered.step (hs : Ordered order s) (hC : InSymbolOrder order s a)
    (h : ingestStep s a = some t) : Ordered order t := by
  -- a step of a run leaves its arguments as they are
  have hset : ∀ {i : ℕ} {r r' : IngestRun}, s.runs[i]? = some r → t.runs = s.runs.set i r' →
      r'.symbols = r.symbols → Ordered order t := by
    intro i r r' hr hruns hsame r'' hr''
    rw [hruns] at hr''
    rcases List.mem_or_eq_of_mem_set hr'' with hold | rfl
    · exact hs r'' hold
    · rw [hsame]
      exact hs r (List.mem_of_getElem? hr)
  cases a with
  | tick ms =>
    obtain rfl := Option.some.inj h
    exact hs
  | enter symbols startDate endDate =>
    obtain rfl := Option.some.inj h
    intro r hr
    rcases List.mem_append.mp hr with hr | hr
    · exact hs r hr
    · rw [List.mem_singleton.mp hr]
      exact hC
  | set i =>
    obtain ⟨r, hr, h⟩ := Option.bind_eq_some_iff.mp h
    repeat' split at h
    all_goals first
      | exact hset hr (congrArg IngestSite.runs (Option.some.inj h)).symm rfl
      | exact absurd h (by simp)
  | raise i executed =>
    obtain ⟨r, hr, h⟩ := Option.bind_eq_some_iff.mp h
    split at h
    · exact hset hr (congrArg IngestSite.runs (Option.some.inj h)).symm rfl
    · cases h
  | leave i =>
    obtain ⟨r, hr, h⟩ := Option.bind_eq_some_iff.mp h
    split at h
    · exact hset hr (congrArg IngestSite.runs (Option.some.inj h)).symm rfl
    · cases h
  | release i executed =>
    obtain ⟨r, hr, h⟩ := Option.bind_eq_some_iff.mp h
    split at h
    · rename_i h₀ rest _ _
      have hruns : (if executed then s.compareAndDelete i h₀ else s).runs = s.runs := by
        unfold IngestSite.compareAndDelete
        repeat' split
        all_goals rfl
      have ht := (congrArg IngestSite.runs (Option.some.inj h)).symm
      rw [IngestSite.setRun, hruns] at ht
      exact hset hr ht rfl
    · cases h
  | die i =>
    obtain ⟨r, hr, h⟩ := Option.map_eq_some_iff.mp h
    exact hset hr (congrArg IngestSite.runs h).symm rfl

theorem Ordered.run {as : List IngestLabel}
    (h : Path ingestSystem (InSymbolOrder order) .initial as s) : Ordered order s :=
  h.invariant (fun _ _ _ hs hC hstep => hs.step hC hstep) fun _ hr => absurd hr List.not_mem_nil

/-- A place that a run has yet to take is above the places it has taken. -/
theorem IngestRun.Own.rank_lt {h : Holding} {place : String × ℤ} (hown : r.Own i)
    (horder : order.Nodup) (hsub : r.symbols.Sublist order) (htaking : r.stage.taking = true)
    (hh : h ∈ r.tokens) (hplace : place ∈ r.pending) :
    (placeOrder order).rank (keyed h.place) < (placeOrder order).rank (keyed place) := by
  have hsorted := pairwise_lockPlaces horder hsub r.startDate r.endDate
  rw [← hown.places htaking, List.pairwise_append] at hsorted
  exact hsorted.2.2 _ (List.mem_map_of_mem hh) place hplace

/-- A run takes its locks upwards. -/
theorem respected_transaction (horder : order.Nodup) (hown : r.Own i)
    (hsub : r.symbols.Sublist order) :
    (placeOrder order).Respected (r.transaction s.now) := by
  right
  refine ⟨fun k _ g hg => (by cases hg), ?_⟩
  show (placeOrder order).AdmitsAll _ (if r.stage.taking then r.pending.map keyed else [])
  split
  · rename_i htaking
    have hsorted := pairwise_lockPlaces horder hsub r.startDate r.endDate
    rw [← hown.places htaking, List.pairwise_append] at hsorted
    apply LockOrder.admitsAll_of_ascending (fun _ _ => rfl) _ (List.pairwise_map.mpr hsorted.2.1)
    intro k' hk' k hk _
    obtain ⟨h, hh, rfl⟩ := List.mem_map.mp hk'
    obtain ⟨place, hplace, rfl⟩ := List.mem_map.mp hk
    exact hown.rank_lt horder hsub htaking (List.mem_filter.mp hh).1 hplace
  · trivial

/-- The transactions of the runs are in order: their locks are exclusive and taken upwards. -/
theorem Held.inOrder (horder : order.Nodup) (hs : Held s) (hordered : Ordered order s) :
    InOrder (placeOrder order) (s.runs.map (IngestRun.transaction s.now)) where
  exclusive := by
    intro i j u u' hu hu' k hk hk'
    rw [List.getElem?_map] at hu hu'
    obtain ⟨r, hr, rfl⟩ := Option.map_eq_some_iff.mp hu
    obtain ⟨r', hr', rfl⟩ := Option.map_eq_some_iff.mp hu'
    obtain ⟨h, hh, hplace⟩ := List.mem_map.mp hk
    obtain ⟨h', hh', hplace'⟩ := List.mem_map.mp hk'
    obtain ⟨hmem, hrunning⟩ := List.mem_filter.mp hh
    obtain ⟨hmem', hrunning'⟩ := List.mem_filter.mp hh'
    refine hs.exclusive hr hr' hmem hmem' ?_ (of_decide_eq_true hrunning)
      (of_decide_eq_true hrunning')
    have hkeyed : keyed h.place = keyed h'.place := hplace.trans hplace'.symm
    show buildLockKey h.place.1 h.place.2 = buildLockKey h'.place.1 h'.place.2
    exact buildLockKey_congr hkeyed
  respected := by
    intro i u hu
    rw [List.getElem?_map] at hu
    obtain ⟨r, hr, rfl⟩ := Option.map_eq_some_iff.mp hu
    exact respected_transaction horder (hs.own hr) (hordered r (List.mem_of_getElem? hr))

/-- No run polls for a key it has taken. -/
theorem WaitsForLease.ne (horder : order.Nodup) (hs : Held s) (hordered : Ordered order s)
    (h : WaitsForLease s i j) : i ≠ j := by
  rintro rfl
  obtain ⟨r, r', place, rest, h, hr, hr', ⟨deadline, wakeAt, hstage⟩, hpending, hh, _, hkey⟩ := h
  obtain rfl : r = r' := Option.some.inj (hr.symm.trans hr')
  have htaking : r.stage.taking = true := by rw [hstage]; rfl
  have hplace : place ∈ r.pending := by
    rw [hpending]
    exact List.mem_cons_self
  -- the key would be below itself
  have hlt := (hs.own hr).rank_lt horder (hordered r (List.mem_of_getElem? hr)) htaking hh hplace
  exact hlt.ne (congrArg (placeOrder order).rank (keyed_inj hkey))

/-- A run that polls is a transaction that waits. -/
theorem WaitsForLease.waitsFor (hne : i ≠ j) (h : WaitsForLease s i j) :
    WaitsFor (s.runs.map (IngestRun.transaction s.now)) i j := by
  obtain ⟨r, r', place, rest, h, hr, hr', ⟨deadline, wakeAt, hstage⟩, hpending, hh, hrunning,
    hkey⟩ := h
  have htaking : r.stage.taking = true := by rw [hstage]; rfl
  refine ⟨hne, r.transaction s.now, r'.transaction s.now, keyed place, rest.map keyed, ?_, ?_,
    htaking, ?_, ?_⟩
  · rw [List.getElem?_map, hr]
    rfl
  · rw [List.getElem?_map, hr']
    rfl
  · show (if r.stage.taking then r.pending.map keyed else []) = _
    rw [if_pos htaking, hpending]
    rfl
  · have hplace : keyed h.place = keyed place := keyed_inj hkey
    rw [← hplace]
    exact List.mem_map_of_mem (List.mem_filter.mpr ⟨hh, decide_eq_true hrunning⟩)

end Waiting

end Msai.Smoke
