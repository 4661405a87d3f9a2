import Msai.Instruments.TradingHours

namespace Msai.Instruments

open Msai.Lib Msai.Lib.Calendar

/-!
# Extended hours
(`services/nautilus/security_master/parser.py`, `services/nautilus/market_hours.py`)

The extended windows are those of the trading hours that the liquid hours do not have.

* `Coincide` — two sessions of one weekly window;
* `Kept` — a session whose window is stored as an extended one;
* `isInEth_iff` — the test of extended hours finds the sessions that are kept, and is open if there
  are none;
* `extended_hours_iff` — when it finds those of the trading hours.
-/

/-! ### Sessions of one window -/

/-- They open and close at the same times of the week. -/
def Coincide (s s' : IbSession) : Prop :=
  weekday s.opens.date.number = weekday s'.opens.date.number ∧
    s.opens.minuteOfDay = s'.opens.minuteOfDay ∧ s.closes.minuteOfDay = s'.closes.minuteOfDay

instance (s s' : IbSession) : Decidable (Coincide s s') := inferInstanceAs (Decidable (_ ∧ _))

/-- A session of the trading hours that is none of the liquid hours. -/
def Kept (tradingHours liquidHours : String) (s : IbSession) : Prop :=
  Listed tradingHours s ∧ ∀ l, Listed liquidHours l → ¬ Coincide l s

/-- One session lies in another, read as weekly patterns. -/
def Within (s s' : IbSession) : Prop := ∀ now, s.Covers now → s'.Covers now

section Windows

variable {s s' : IbSession} {now : LocalTime} {hours tradingHours liquidHours : String}
  {window : Window}

theorem weekday_range (d : ℤ) : 0 ≤ weekday d ∧ weekday d < 7 := by
  unfold weekday
  omega

theorem hhmm_clock_inj {t t' : IbTime} :
    hhmm t.clock = hhmm t'.clock ↔ t.minuteOfDay = t'.minuteOfDay := by
  constructor
  · intro heq
    have hparsed := parseHhmm_clock t
    rw [heq, parseHhmm_clock t'] at hparsed
    exact (mul_right_cancel₀ (by decide) (Option.some.inj hparsed)).symm
  · intro heq
    have hh := t.hour_range
    have hm := t.minute_range
    have hh' := t'.hour_range
    have hm' := t'.minute_range
    unfold IbTime.minuteOfDay at heq
    have hhour : t.hour = t'.hour := by omega
    have hminute : t.minute = t'.minute := by omega
    rw [IbTime.clock, IbTime.clock, hhour, hminute]

/-- **Sessions coincide** if they have one window. -/
theorem window_eq_iff : s.window = s'.window ↔ Coincide s s' := by
  have hday : s.window.day = s'.window.day ↔
      weekday s.opens.date.number = weekday s'.opens.date.number :=
    dayName_inj (weekday_range _) (weekday_range _)
  have hopen : s.window.openAt = s'.window.openAt ↔ s.opens.minuteOfDay = s'.opens.minuteOfDay :=
    hhmm_clock_inj
  have hclose : s.window.closeAt = s'.window.closeAt ↔
      s.closes.minuteOfDay = s'.closes.minuteOfDay := hhmm_clock_inj
  unfold Coincide
  rw [Window.mk.injEq, ← hday, ← hopen, ← hclose]

/-- A session inside another one is so in every week. -/
theorem within_of_inside (hopens : s'.opens.minutes ≤ s.opens.minutes)
    (hcloses : s.closes.minutes ≤ s'.closes.minutes) : Within s s' := by
  intro now hcovers
  have hpos := s.positive
  have hday := s'.at_most_a_day
  have hdayUs : dayUs = 86400000000 := rfl
  have hweekUs : weekUs = 604800000000 := rfl
  have hminuteUs : minuteUs = 60000000 := rfl
  unfold IbSession.Covers IbSession.duration at hcovers ⊢
  unfold IbTime.minutes at hopens hcloses hpos hday hcovers ⊢
  unfold weekday at hcovers ⊢
  rw [hdayUs, hweekUs, hminuteUs] at hcovers ⊢
  omega

/-- Sessions that coincide have the same times in them. -/
theorem Coincide.covers (h : Coincide s s') (hcovers : s.Covers now) : s'.Covers now := by
  obtain ⟨hday, hopen, hclose⟩ := h
  have hduration : s.duration = s'.duration := by
    have hcases := s.closes_cases
    have hcases' := s'.closes_cases
    omega
  unfold IbSession.Covers at hcovers ⊢
  rwa [← hday, ← hopen, ← hduration]

theorem fullDay_iff : s.FullDay ↔ s.opens.minuteOfDay = s.closes.minuteOfDay := by
  have hcases := s.closes_cases
  have hopen := s.opens.minuteOfDay_range
  have hclose := s.closes.minuteOfDay_range
  unfold IbSession.FullDay
  omega

/-- Sessions that are written alike coincide. -/
theorem coincide_of_format (h : s.format = s'.format) : Coincide s s' := by
  have hparsed := parseSession_format s
  rw [h, parseSession_format s'] at hparsed
  exact window_eq_iff.mp (Option.some.inj hparsed).symm

/-- The windows that are stored as extended ones. -/
theorem mem_ethWindows (hwf : WellFormed tradingHours) (hwf' : WellFormed liquidHours) :
    window ∈ (parseIbHoursString tradingHours).filter
        (fun w => w ∉ parseIbHoursString liquidHours) ↔
      ∃ s, Kept tradingHours liquidHours s ∧ s.window = window := by
  rw [List.mem_filter, decide_eq_true_eq, mem_parse_of_wellFormed hwf,
    mem_parse_of_wellFormed hwf']
  constructor
  · rintro ⟨⟨s, hs, rfl⟩, hnot⟩
    exact ⟨s, ⟨hs, fun l hl hcoincide => hnot ⟨l, hl, window_eq_iff.mpr hcoincide⟩⟩, rfl⟩
  · rintro ⟨s, ⟨hs, hkept⟩, rfl⟩
    refine ⟨⟨s, hs, rfl⟩, ?_⟩
    rintro ⟨l, hl, hwindow⟩
    exact hkept l hl (window_eq_iff.mp hwindow)

end Windows

/-! ### The test -/

section Test

variable {zones : String → Option (ℤ → LocalTime)} {cache : HoursCache} {canonicalId : String}
  {tradingHours liquidHours : String} {timeZoneId : Option String} {toLocal : ℤ → LocalTime}
  {ts : ℤ} {now : LocalTime} {hours : String}

/-- The test of extended hours of an instrument whose hours were extracted. -/
theorem isInEth_eq
    (hcache : Dict.get cache canonicalId
      = some (extractTradingHours (some tradingHours) (some liquidHours) timeZoneId))
    (hzone : zones (zoneOf timeZoneId) = some toLocal)
    (hliquid : parseIbHoursString liquidHours ≠ []) :
    let windows := (parseIbHoursString tradingHours).filter fun w =>
      w ∉ parseIbHoursString liquidHours
    isInEth zones cache canonicalId ts
      = if windows.isEmpty then true else windows.any (inWindow (toLocal ts)) := by
  intro windows
  have hsome : extractTradingHours (some tradingHours) (some liquidHours) timeZoneId
      = some ⟨zoneOf timeZoneId, parseIbHoursString liquidHours, windows⟩ := by
    unfold extractTradingHours
    refine if_neg fun hempty => hliquid ?_
    exact List.isEmpty_iff.mp (Bool.and_eq_true_iff.mp hempty).1
  unfold isInEth isInWindowKind
  rw [hcache, hsome]
  show (if windows.isEmpty then true else isInWindow zones ts windows (zoneOf timeZoneId)) = _
  unfold isInWindow
  rw [hzone]

/-- **The test of extended hours** finds the sessions that are kept, and is open if none is. -/
theorem isInEth_iff
    (hcache : Dict.get cache canonicalId
      = some (extractTradingHours (some tradingHours) (some liquidHours) timeZoneId))
    (hzone : zones (zoneOf timeZoneId) = some toLocal) (hwf : WellFormed tradingHours)
    (hwf' : WellFormed liquidHours) (hliquid : ∃ s, Listed liquidHours s)
    (hshort : ∀ s, Listed tradingHours s → ¬ s.FullDay) :
    isInEth zones cache canonicalId ts = true ↔
      ((∃ s, Kept tradingHours liquidHours s) →
        ∃ s, Kept tradingHours liquidHours s ∧ s.Covers (toLocal ts)) := by
  rw [isInEth_eq hcache hzone (parse_ne_nil hwf' hliquid)]
  have hwindows := fun window => @mem_ethWindows tradingHours liquidHours window hwf hwf'
  split
  · rename_i hempty
    refine iff_of_true rfl fun hkept => ?_
    obtain ⟨s, hs⟩ := hkept
    have hmem := (hwindows s.window).mpr ⟨s, hs, rfl⟩
    rw [List.isEmpty_iff.mp hempty] at hmem
    exact absurd hmem List.not_mem_nil
  · rename_i hsome
    obtain ⟨window, hwindow⟩ := List.exists_mem_of_ne_nil _ (List.isEmpty_iff.not.mp hsome)
    obtain ⟨s₀, hs₀, -⟩ := (hwindows window).mp hwindow
    rw [List.any_eq_true, forall_prop_of_true ⟨s₀, hs₀⟩]
    constructor
    · rintro ⟨window, hwindow, hin⟩
      obtain ⟨s, hs, rfl⟩ := (hwindows window).mp hwindow
      exact ⟨s, hs, (inWindow_iff.mp hin).2⟩
    · rintro ⟨s, hs, hcovers⟩
      exact ⟨s.window, (hwindows s.window).mpr ⟨s, hs, rfl⟩,
        inWindow_iff.mpr ⟨hshort s hs.1, hcovers⟩⟩

/-- Where liquid sessions lie in trading sessions, regular hours are trading hours. -/
theorem covered_of_isInRth
    (hcache : Dict.get cache canonicalId
      = some (extractTradingHours (some tradingHours) (some liquidHours) timeZoneId))
    (hzone : zones (zoneOf timeZoneId) = some toLocal) (hwf' : WellFormed liquidHours)
    (hliquid : ∃ s, Listed liquidHours s)
    (hinside : ∀ l, Listed liquidHours l → ∃ s, Listed tradingHours s ∧ Within l s)
    (hrth : isInRth zones cache canonicalId ts = true) :
    ∃ s, Listed tradingHours s ∧ s.Covers (toLocal ts) := by
  rw [isInRth_eq hcache hzone, if_neg (List.isEmpty_iff.not.mpr (parse_ne_nil hwf' hliquid)),
    any_inWindow_iff hwf'] at hrth
  obtain ⟨l, hl, -, hcovers⟩ := hrth
  obtain ⟨s, hs, hwithin⟩ := hinside l hl
  exact ⟨s, hs, hwithin (toLocal ts) hcovers⟩

/-- The windows that are dropped are not missed: where one is kept, the times of all sessions are
    times of sessions that are kept; and where none is, the session has begun and not ended. -/
structure NothingDropped (tradingHours liquidHours : String) (now : LocalTime) : Prop where
  kept : (∃ s, Kept tradingHours liquidHours s) → ∀ s, Listed tradingHours s → s.Covers now →
    ∃ s', Kept tradingHours liquidHours s' ∧ s'.Covers now
  none_kept : (∀ s, ¬ Kept tradingHours liquidHours s) →
    ∃ s, Listed tradingHours s ∧ s.Covers now

/-- **The test of extended hours is that of the trading hours**, and open in regular hours, exactly
    at the times at which no dropped window is missed. -/
theorem extended_hours_iff (zones : String → Option (ℤ → LocalTime)) (cache : HoursCache)
    (canonicalId : String) (tradingHours liquidHours : String) (timeZoneId : Option String)
    (toLocal : ℤ → LocalTime) (ts : ℤ)
    (hcache : Dict.get cache canonicalId
      = some (extractTradingHours (some tradingHours) (some liquidHours) timeZoneId))
    (hzone : zones (zoneOf timeZoneId) = some toLocal) (hwf : WellFormed tradingHours)
    (hwf' : WellFormed liquidHours) (hliquid : ∃ s, Listed liquidHours s)
    (hshort : ∀ s, Listed tradingHours s ∨ Listed liquidHours s → ¬ s.FullDay)
    (hinside : ∀ l, Listed liquidHours l → ∃ s, Listed tradingHours s ∧ Within l s) :
    ((isInEth zones cache canonicalId ts = true ↔
        ∃ s, Listed tradingHours s ∧ s.Covers (toLocal ts)) ∧
      (isInRth zones cache canonicalId ts = true → isInEth zones cache canonicalId ts = true)) ↔
      NothingDropped tradingHours liquidHours (toLocal ts) := by
  have heth : isInEth zones cache canonicalId ts = true ↔ _ :=
    isInEth_iff hcache hzone hwf hwf' hliquid fun s hs => hshort s (Or.inl hs)
  rw [heth]
  constructor
  · rintro ⟨hiff, -⟩
    refine ⟨fun hkept s hs hcovers => hiff.mpr ⟨s, hs, hcovers⟩ hkept, fun hnone => hiff.mp ?_⟩
    rintro ⟨s, hs⟩
    exact absurd hs (hnone s)
  · intro hdropped
    have hmpr : (∃ s, Listed tradingHours s ∧ s.Covers (toLocal ts)) →
        (∃ s, Kept tradingHours liquidHours s) →
          ∃ s, Kept tradingHours liquidHours s ∧ s.Covers (toLocal ts) := by
      rintro ⟨s, hs, hcovers⟩ hkept
      exact hdropped.kept hkept s hs hcovers
    refine ⟨⟨fun hopen => ?_, hmpr⟩, fun hrth =>
      hmpr (covered_of_isInRth hcache hzone hwf' hliquid hinside hrth)⟩
    by_cases hkept : ∃ s, Kept tradingHours liquidHours s
    · obtain ⟨s, hs, hcovers⟩ := hopen hkept
      exact ⟨s, hs.1, hcovers⟩
    · exact hdropped.none_kept (not_exists.mp hkept)

/-! ### Sessions of June 2026 -/

/-- A time of June 2026. -/
def juneTime (day hour minute : ℕ)
    (h : isDate 2026 6 day = true ∧ hour < 24 ∧ minute < 60) : IbTime :=
  ⟨⟨2026, 6, day, firstOfJune.year_range, h.1⟩, hour, minute, h.2.1, h.2.2⟩

/-- Monday, from 4:00 to 20:00. -/
def mondayLong : IbSession where
  opens := juneTime 1 4 0 (by decide)
  closes := juneTime 1 20 0 (by decide)
  positive := by decide
  at_most_a_day := by decide

/-- Monday and Tuesday, from 9:30 to 16:00. -/
def mondayRegular : IbSession where
  opens := juneTime 1 9 30 (by decide)
  closes := juneTime 1 16 0 (by decide)
  positive := by decide
  at_most_a_day := by decide

def tuesdayRegular : IbSession where
  opens := juneTime 2 9 30 (by decide)
  closes := juneTime 2 16 0 (by decide)
  positive := by decide
  at_most_a_day := by decide

theorem mondayRegular_within : Within mondayRegular mondayLong :=
  within_of_inside (by decide) (by decide)

/-- What is listed in a text of sessions is written like one of them. -/
theorem coincide_of_listed {sessions : List IbSession} {s : IbSession}
    (hentries : entries hours = sessions.map IbSession.format) (hs : Listed hours s) :
    ∃ s' ∈ sessions, Coincide s s' := by
  unfold Listed at hs
  rw [hentries] at hs
  obtain ⟨s', hs', hformat⟩ := List.mem_map.mp hs
  exact ⟨s', hs', coincide_of_format hformat.symm⟩

theorem listed_of_mem {sessions : List IbSession} {s : IbSession}
    (hentries : entries hours = sessions.map IbSession.format) (hs : s ∈ sessions) :
    Listed hours s := by
  unfold Listed
  rw [hentries]
  exact List.mem_map_of_mem hs

theorem wellFormed_of_entries {sessions : List IbSession}
    (hentries : entries hours = sessions.map IbSession.format) : WellFormed hours := by
  intro entry hentry
  rw [hentries] at hentry
  obtain ⟨s, -, hformat⟩ := List.mem_map.mp hentry
  exact Or.inr (Or.inr ⟨s, hformat.symm⟩)

theorem not_fullDay_of_listed {sessions : List IbSession} {s : IbSession}
    (hentries : entries hours = sessions.map IbSession.format)
    (hshort : ∀ s ∈ sessions, ¬ s.FullDay) (hs : Listed hours s) : ¬ s.FullDay := by
  obtain ⟨s', hs', -, hopen, hclose⟩ := coincide_of_listed hentries hs
  rw [fullDay_iff, hopen, hclose, ← fullDay_iff]
  exact hshort s' hs'

/-- On Tuesday both texts have the regular session only.  Its window is dropped, and the test of
    extended hours is closed in regular hours. -/
theorem extended_hours_fails :
    let tradingHours := "20260601:0400-20260601:2000;20260602:0930-20260602:1600"
    let liquidHours := "20260601:0930-20260601:1600;20260602:0930-20260602:1600"
    let hours := extractTradingHours (some tradingHours) (some liquidHours) none
    let ts := tuesdayRegular.opens.date.number * dayUs + 10 * 60 * minuteUs
    (entries tradingHours = [mondayLong, tuesdayRegular].map IbSession.format ∧
      entries liquidHours = [mondayRegular, tuesdayRegular].map IbSession.format ∧
      Within mondayRegular mondayLong) ∧
    tuesdayRegular.Covers (utc ts) ∧ isInRth onlyUtc [("AAPL", hours)] "AAPL" ts = true ∧
      isInEth onlyUtc [("AAPL", hours)] "AAPL" ts = false := by
  intro tradingHours liquidHours hours ts
  exact ⟨⟨by decide +kernel, by decide +kernel, mondayRegular_within⟩, by decide +kernel,
    by decide +kernel, by decide +kernel⟩

/-- A day with hours before and behind the regular ones. -/
theorem extended_hours_iff_monday :
    let tradingHours := "20260601:0400-20260601:2000"
    let liquidHours := "20260601:0930-20260601:1600"
    let hours := extractTradingHours (some tradingHours) (some liquidHours) none
    let ts := mondayLong.opens.date.number * dayUs + 10 * 60 * minuteUs
    (isInEth onlyUtc [("AAPL", hours)] "AAPL" ts = true ↔
        ∃ s, Listed tradingHours s ∧ s.Covers (utc ts)) ∧
      (isInRth onlyUtc [("AAPL", hours)] "AAPL" ts = true →
        isInEth onlyUtc [("AAPL", hours)] "AAPL" ts = true) := by
  intro tradingHours liquidHours hours ts
  have htrading : entries tradingHours = [mondayLong].map IbSession.format := by decide +kernel
  have hliquid : entries liquidHours = [mondayRegular].map IbSession.format := by decide +kernel
  have hlong : Listed tradingHours mondayLong := listed_of_mem htrading List.mem_cons_self
  have hkept : Kept tradingHours liquidHours mondayLong := by
    refine ⟨hlong, fun l hl hcoincide => ?_⟩
    obtain ⟨s', hs', hlike⟩ := coincide_of_listed hliquid hl
    obtain rfl := List.mem_singleton.mp hs'
    exact absurd (hcoincide.2.1.symm.trans hlike.2.1) (by decide)
  refine (extended_hours_iff onlyUtc [("AAPL", hours)] "AAPL" tradingHours liquidHours none utc ts
    rfl rfl (wellFormed_of_entries htrading) (wellFormed_of_entries hliquid)
    ⟨mondayRegular, listed_of_mem hliquid List.mem_cons_self⟩ ?_ ?_).mpr
    ⟨fun _ s hs hcovers => ?_, fun hnone => absurd hkept (hnone mondayLong)⟩
  · rintro s (hs | hs)
    · exact not_fullDay_of_listed htrading (by decide) hs
    · exact not_fullDay_of_listed hliquid (by decide) hs
  · intro l hl
    obtain ⟨s', hs', hlike⟩ := coincide_of_listed hliquid hl
    obtain rfl := List.mem_singleton.mp hs'
    exact ⟨mondayLong, hlong, fun now hnow => mondayRegular_within now (hlike.covers hnow)⟩
  · exact ⟨mondayLong, hkept, by decide +kernel⟩

end Test

end Msai.Instruments
