import Msai.Lib.Dict
import Msai.Lib.PyDate
import Msai.Lib.PyText
import Msai.Live.DataFreshness

namespace Msai.Instruments

open Msai.Lib Msai.Lib.Calendar Msai.Lib.PyDate
open Msai.Live.DataFreshness (pyInt pySplit)

/-!
# Trading hours
(`services/nautilus/security_master/parser.py`, `services/nautilus/market_hours.py`)

The hours of a contract, from the text of the broker to the test of an instant.

* `parseIbHoursString`, `extractTradingHours` — the conversion to windows of weekdays;
* `isInWindow`, `isInRth` — the test, in the time zone of the instrument;
* `IbSession`, `IbSession.Covers` — a session of the text, and the times of the week in it;
* `inWindow_iff` — a window is its session, if the session is shorter than a day;
* `regular_hours_iff` — the test finds the sessions that are listed.

Time zones are an argument: `zones` has the ones that `ZoneInfo` knows, and local times count
microseconds from midnight.
-/

/-! ### The parser -/

/-- A session as it is stored. -/
structure Window where
  day : String
  openAt : String
  closeAt : String
deriving DecidableEq, Repr

/-- `_DAY_OF_WEEK_CODES` and `_DAY_NAMES`. -/
def dayNames : List String := ["MON", "TUE", "WED", "THU", "FRI", "SAT", "SUN"]

def dayName (weekday : ℤ) : String := dayNames.getD weekday.toNat ""

/-- `f"{t[:2]}:{t[2:4]}"`. -/
def hhmm (t : List Char) : String := String.ofList (t.take 2 ++ ':' :: (t.drop 2).take 2)

/-- One session, or an exception that is caught. -/
def parseSession (sessionStr : List Char) : Option Window :=
  (splitOnce '-' sessionStr).bind fun (openPart, closePart) =>
    (splitOnce ':' openPart).bind fun (openDateStr, openTimeStr) =>
      (splitOnce ':' closePart).bind fun (_, closeTimeStr) =>
        (strptimeYmd openDateStr).map fun d =>
          { day := dayName (weekday d), openAt := hhmm openTimeStr, closeAt := hhmm closeTimeStr }

/-- `":CLOSED"`. -/
def closedMark : List Char := ":CLOSED".toList

/-- The body of the loop; what is in `seen` are the sessions. -/
def addSession (sessions : List Window) (piece : List Char) : List Window :=
  let sessionStr := PyText.stripChars piece
  if sessionStr.isEmpty || PyText.contains closedMark sessionStr then sessions
  else
    match parseSession sessionStr with
    | none => sessions
    | some window => if window ∈ sessions then sessions else sessions ++ [window]

/-- `_parse_ib_hours_string`. -/
def parseIbHoursString (hours : String) : List Window :=
  if hours = "" then [] else (hours.toList.splitOn ';').foldl addSession []

/-- The `trading_hours` column. -/
structure TradingHours where
  timezone : String
  rth : List Window
  eth : List Window
deriving DecidableEq, Repr

/-- `time_zone_id or "UTC"`. -/
def zoneOf (timeZoneId : Option String) : String :=
  match timeZoneId with
  | some zone => if zone = "" then "UTC" else zone
  | none => "UTC"

/-- `extract_trading_hours`. -/
def extractTradingHours (tradingHours liquidHours timeZoneId : Option String) :
    Option TradingHours :=
  let liquidSessions := parseIbHoursString (liquidHours.getD "")
  let allSessions := parseIbHoursString (tradingHours.getD "")
  let ethSessions := allSessions.filter fun s => s ∉ liquidSessions
  if liquidSessions.isEmpty && ethSessions.isEmpty then none
  else some { timezone := zoneOf timeZoneId, rth := liquidSessions, eth := ethSessions }

/-! ### The test -/

/-- Microseconds in a minute, in a day and in a week. -/
def minuteUs : ℤ := 60 * 10 ^ 6
def dayUs : ℤ := 24 * 60 * minuteUs
def weekUs : ℤ := 7 * dayUs

/-- `local.weekday()` and `local.time()`. -/
structure LocalTime where
  weekday : ℤ
  time : ℤ
  weekday_range : 0 ≤ weekday ∧ weekday < 7
  time_range : 0 ≤ time ∧ time < dayUs

/-- `_parse_hhmm`. -/
def parseHhmm (value : String) : Option ℤ :=
  match pySplit value ':' with
  | [hour, minute] =>
    match pyInt hour, pyInt minute with
    | some h, some m =>
      if (0 ≤ h ∧ h < 24) ∧ 0 ≤ m ∧ m < 60 then some ((60 * h + m) * minuteUs) else none
    | _, _ => none
  | _ => none

/-- The body of the loop of `_is_in_window`. -/
def inWindow (now : LocalTime) (window : Window) : Bool :=
  let day := dayName now.weekday
  let prevDay := dayName ((now.weekday - 1) % 7)
  if window.day ≠ day ∧ window.day ≠ prevDay then false
  else
    match parseHhmm window.openAt, parseHhmm window.closeAt with
    | some openT, some closeT =>
      if openT ≤ closeT then
        decide (window.day = day ∧ openT ≤ now.time ∧ now.time < closeT)
      else
        decide (window.day = day ∧ openT ≤ now.time) ||
          decide (window.day = prevDay ∧ now.time < closeT)
    | _, _ => false

section Service

variable (zones : String → Option (ℤ → LocalTime))

/-- `_is_in_window`: it fails open on a zone that is not known. -/
def isInWindow (ts : ℤ) (windows : List Window) (timezone : String) : Bool :=
  match zones timezone with
  | none => true
  | some toLocal => windows.any (inWindow (toLocal ts))

/-- The argument `kind`. -/
inductive Kind
  | rth
  | eth
deriving DecidableEq, Repr

def TradingHours.windows (hours : TradingHours) : Kind → List Window
  | .rth => hours.rth
  | .eth => hours.eth

/-- `MarketHoursService._cache`. -/
abbrev HoursCache := Dict String (Option TradingHours)

/-- `_is_in_window_kind`: it fails open without hours, and without windows. -/
def isInWindowKind (cache : HoursCache) (canonicalId : String) (ts : ℤ) (kind : Kind) : Bool :=
  match (Dict.get cache canonicalId).join with
  | none => true
  | some hours =>
    if (hours.windows kind).isEmpty then true
    else isInWindow zones ts (hours.windows kind) hours.timezone

def isInRth (cache : HoursCache) (canonicalId : String) (ts : ℤ) : Bool :=
  isInWindowKind zones cache canonicalId ts .rth

def isInEth (cache : HoursCache) (canonicalId : String) (ts : ℤ) : Bool :=
  isInWindowKind zones cache canonicalId ts .eth

end Service

/-! ### Sessions -/

/-- A date of the text. -/
structure IbDate where
  year : ℕ
  month : ℕ
  day : ℕ
  year_range : 1 ≤ year ∧ year < 10000
  is_date : isDate year month day = true
deriving DecidableEq

/-- A date and a time of day. -/
structure IbTime where
  date : IbDate
  hour : ℕ
  minute : ℕ
  hour_range : hour < 24
  minute_range : minute < 60
deriving DecidableEq

def IbDate.number (date : IbDate) : ℤ := dayNumber date.year date.month date.day

def IbDate.format (date : IbDate) : List Char := formatYmd date.year date.month date.day

def IbTime.clock (t : IbTime) : List Char := twoDigits t.hour ++ twoDigits t.minute

def IbTime.format (t : IbTime) : List Char := t.date.format ++ ':' :: t.clock

/-- Minutes from midnight. -/
def IbTime.minuteOfDay (t : IbTime) : ℤ := 60 * t.hour + t.minute

/-- Minutes from 1970-01-01. -/
def IbTime.minutes (t : IbTime) : ℤ := 24 * 60 * t.date.number + t.minuteOfDay

/-- A session of more than 0 and at most 24 hours. -/
structure IbSession where
  opens : IbTime
  closes : IbTime
  positive : opens.minutes < closes.minutes
  at_most_a_day : closes.minutes ≤ opens.minutes + 24 * 60
deriving DecidableEq

namespace IbSession

def format (s : IbSession) : List Char := s.opens.format ++ '-' :: s.closes.format

def duration (s : IbSession) : ℤ := s.closes.minutes - s.opens.minutes

/-- The session, read as a part of every week. -/
def Covers (s : IbSession) (now : LocalTime) : Prop :=
  (now.weekday * dayUs + now.time
      - (weekday s.opens.date.number * dayUs + s.opens.minuteOfDay * minuteUs)) % weekUs
    < s.duration * minuteUs

instance (s : IbSession) (now : LocalTime) : Decidable (s.Covers now) :=
  inferInstanceAs (Decidable (_ < _))

/-- It lasts 24 hours. -/
def FullDay (s : IbSession) : Prop := s.duration = 24 * 60

instance (s : IbSession) : Decidable s.FullDay := inferInstanceAs (Decidable (_ = _))

/-- What the parser makes of it. -/
def window (s : IbSession) : Window where
  day := dayName (weekday s.opens.date.number)
  openAt := hhmm s.opens.clock
  closeAt := hhmm s.closes.clock

end IbSession

/-- The entries of a text. -/
def entries (hours : String) : List (List Char) :=
  (hours.toList.splitOn ';').map PyText.stripChars

/-- A session is listed. -/
def Listed (hours : String) (s : IbSession) : Prop := s.format ∈ entries hours

/-- The entries are sessions and days that are closed. -/
def WellFormed (hours : String) : Prop :=
  ∀ entry ∈ entries hours, entry = [] ∨ (∃ date : IbDate, entry = date.format ++ closedMark) ∨
    ∃ s : IbSession, entry = s.format

/-! ### Windows and sessions -/

section Windows

variable {s : IbSession} {now : LocalTime} {hours : String} {window : Window} {t : IbTime}
  {c : Char}

theorem dayName_inj {w w' : ℤ} (h : 0 ≤ w ∧ w < 7) (h' : 0 ≤ w' ∧ w' < 7) :
    dayName w = dayName w' ↔ w = w' := by
  have hinj : ∀ i < 7, ∀ j < 7, dayNames.getD i "" = dayNames.getD j "" → i = j := by decide
  refine ⟨fun heq => ?_, congrArg dayName⟩
  have hnat := hinj w.toNat (by omega) w'.toNat (by omega) heq
  omega

theorem pyInt_twoDigits {n : ℕ} (h : n < 100) :
    pyInt (String.ofList (twoDigits n)) = some (n : ℤ) := by
  have hall : ∀ n < 100, pyInt (String.ofList (twoDigits n)) = some (n : ℤ) := by decide +kernel
  exact hall n h

theorem parseHhmm_clock (t : IbTime) :
    parseHhmm (hhmm t.clock) = some (t.minuteOfDay * minuteUs) := by
  have hhour : ':' ∉ twoDigits t.hour := fun h => by
    have hdigit := isDigit_twoDigits (by have := t.hour_range; omega) h
    exact absurd hdigit (by decide)
  have hminute : ':' ∉ twoDigits t.minute := fun h => by
    have hdigit := isDigit_twoDigits (by have := t.minute_range; omega) h
    exact absurd hdigit (by decide)
  have hsplit : pySplit (hhmm t.clock) ':'
      = [String.ofList (twoDigits t.hour), String.ofList (twoDigits t.minute)] := by
    show ((String.ofList (twoDigits t.hour ++ ':' :: twoDigits t.minute)).toList.splitOn ':').map _
      = _
    rw [String.toList_ofList, List.splitOn_append_cons_self_of_not_mem hhour,
      List.splitOn_eq_singleton hminute]
    rfl
  unfold parseHhmm
  rw [hsplit]
  dsimp only
  rw [pyInt_twoDigits (by have := t.hour_range; omega),
    pyInt_twoDigits (by have := t.minute_range; omega)]
  dsimp only
  have hh := t.hour_range
  have hm := t.minute_range
  rw [if_pos (by omega)]
  rfl

/-- A session closes on its day, or not later than at the same time of the next. -/
theorem IbSession.closes_cases (s : IbSession) :
    (s.duration = s.closes.minuteOfDay - s.opens.minuteOfDay ∧
      s.opens.minuteOfDay < s.closes.minuteOfDay) ∨
    (s.duration = s.closes.minuteOfDay - s.opens.minuteOfDay + 24 * 60 ∧
      s.closes.minuteOfDay ≤ s.opens.minuteOfDay) := by
  have hpos := s.positive
  have hday := s.at_most_a_day
  have ho := s.opens.hour_range
  have ho' := s.opens.minute_range
  have hc := s.closes.hour_range
  have hc' := s.closes.minute_range
  unfold IbSession.duration
  unfold IbTime.minutes IbTime.minuteOfDay at *
  omega

theorem IbTime.minuteOfDay_range (t : IbTime) :
    0 ≤ t.minuteOfDay ∧ t.minuteOfDay < 24 * 60 := by
  have hh := t.hour_range
  have hm := t.minute_range
  unfold IbTime.minuteOfDay
  omega

/-- The times of a session are on the day it opens, and on the next one. -/
theorem IbSession.covers_iff (s : IbSession) (now : LocalTime) : s.Covers now ↔
    (weekday s.opens.date.number = now.weekday ∧ s.opens.minuteOfDay * minuteUs ≤ now.time ∧
      now.time < (s.opens.minuteOfDay + s.duration) * minuteUs) ∨
    (weekday s.opens.date.number = (now.weekday - 1) % 7 ∧
      now.time < (s.opens.minuteOfDay + s.duration - 24 * 60) * minuteUs) := by
  obtain ⟨hw, hw'⟩ := now.weekday_range
  obtain ⟨ht, ht'⟩ := now.time_range
  obtain ⟨ho, ho'⟩ := s.opens.minuteOfDay_range
  have hpos : 0 < s.duration ∧ s.duration ≤ 24 * 60 := by
    have h := s.positive
    have h' := s.at_most_a_day
    unfold IbSession.duration
    omega
  have hday : 0 ≤ weekday s.opens.date.number ∧ weekday s.opens.date.number < 7 := by
    unfold weekday
    omega
  unfold IbSession.Covers
  generalize weekday s.opens.date.number = day at hday ⊢
  generalize s.opens.minuteOfDay = start at ho ho' ⊢
  generalize s.duration = minutes at hpos ⊢
  generalize now.weekday = today at hw hw' ⊢
  generalize now.time = time at ht ht' ⊢
  have hdayUs : dayUs = 86400000000 := rfl
  have hweekUs : weekUs = 604800000000 := rfl
  have hminuteUs : minuteUs = 60000000 := rfl
  rw [hdayUs] at ht' ⊢
  rw [hweekUs, hminuteUs]
  omega

/-- **A window is its session**, if the session is shorter than a day; that of a whole day has no
    time in it. -/
theorem inWindow_iff : inWindow now s.window = true ↔ ¬ s.FullDay ∧ s.Covers now := by
  have hday : 0 ≤ weekday s.opens.date.number ∧ weekday s.opens.date.number < 7 := by
    unfold weekday
    omega
  have hprev : 0 ≤ (now.weekday - 1) % 7 ∧ (now.weekday - 1) % 7 < 7 := by omega
  have hsame : s.window.day = dayName now.weekday
      ↔ weekday s.opens.date.number = now.weekday := dayName_inj hday now.weekday_range
  have hbefore : s.window.day = dayName ((now.weekday - 1) % 7)
      ↔ weekday s.opens.date.number = (now.weekday - 1) % 7 := dayName_inj hday hprev
  have hopen : parseHhmm s.window.openAt = some (s.opens.minuteOfDay * minuteUs) :=
    parseHhmm_clock s.opens
  have hclose : parseHhmm s.window.closeAt = some (s.closes.minuteOfDay * minuteUs) :=
    parseHhmm_clock s.closes
  obtain ⟨ht, ht'⟩ := now.time_range
  obtain ⟨ho, ho'⟩ := s.opens.minuteOfDay_range
  obtain ⟨hc, hc'⟩ := s.closes.minuteOfDay_range
  have hcases := s.closes_cases
  rw [s.covers_iff]
  unfold inWindow IbSession.FullDay
  dsimp only
  rw [hopen, hclose]
  dsimp only
  have hminuteUs : minuteUs = 60000000 := rfl
  have hdayUs : dayUs = 86400000000 := rfl
  rw [hdayUs] at ht'
  rw [hminuteUs]
  split
  · rename_i hother
    have hneither : weekday s.opens.date.number ≠ now.weekday ∧
        weekday s.opens.date.number ≠ (now.weekday - 1) % 7 :=
      ⟨fun h => hother.1 (hsame.mpr h), fun h => hother.2 (hbefore.mpr h)⟩
    exact iff_of_false (by simp) fun h => by omega
  · split
    · -- on one day, or over a whole one
      rw [decide_eq_true_eq, hsame]
      omega
    · rw [Bool.or_eq_true, decide_eq_true_eq, decide_eq_true_eq, hsame, hbefore]
      omega

/-! ### The text -/

theorem isDigit_clock (h : c ∈ t.clock) : c.isDigit = true := by
  have hh := t.hour_range
  have hm := t.minute_range
  rcases List.mem_append.mp h with h | h
  · exact isDigit_twoDigits (by omega) h
  · exact isDigit_twoDigits (by omega) h

theorem isDigit_date {date : IbDate} (h : c ∈ date.format) : c.isDigit = true := by
  obtain ⟨hm, hd⟩ := isDate_range date.is_date
  rcases List.mem_append.mp h with h | h
  · exact isDigit_fourDigits date.year_range.2 h
  · rcases List.mem_append.mp h with h | h
    · exact isDigit_twoDigits (by omega) h
    · exact isDigit_twoDigits (by omega) h

theorem mem_time (h : c ∈ t.format) : c.isDigit = true ∨ c = ':' := by
  rcases List.mem_append.mp h with h | h
  · exact Or.inl (isDigit_date h)
  · rcases List.mem_cons.mp h with h | h
    · exact Or.inr h
    · exact Or.inl (isDigit_clock h)

theorem mem_session (h : c ∈ s.format) : c.isDigit = true ∨ c = ':' ∨ c = '-' := by
  rcases List.mem_append.mp h with h | h
  · exact (mem_time h).imp_right Or.inl
  · rcases List.mem_cons.mp h with h | h
    · exact Or.inr (Or.inr h)
    · exact (mem_time h).imp_right Or.inl

/-- A session is not the mark of a closed day. -/
theorem not_closed_session : ¬ closedMark <:+: s.format := by
  intro h
  have hmem : 'C' ∈ s.format := h.subset (by decide)
  rcases mem_session hmem with h | h | h
  · exact absurd h (by decide)
  · exact absurd h (by decide)
  · exact absurd h (by decide)

/-- **A session is parsed.** -/
theorem parseSession_format (s : IbSession) : parseSession s.format = some s.window := by
  have hdash : '-' ∉ s.opens.format := fun h => by
    rcases mem_time h with h | h
    · exact absurd h (by decide)
    · exact absurd h (by decide)
  have hcolon : ∀ date : IbDate, ':' ∉ date.format := fun date h =>
    absurd (isDigit_date h) (by decide)
  have hopen : splitOnce ':' s.opens.format = some (s.opens.date.format, s.opens.clock) :=
    splitOnce_append (hcolon s.opens.date)
  have hclose : splitOnce ':' s.closes.format = some (s.closes.date.format, s.closes.clock) :=
    splitOnce_append (hcolon s.closes.date)
  have hdate : strptimeYmd s.opens.date.format = some s.opens.date.number :=
    strptimeYmd_format s.opens.date.year_range s.opens.date.is_date
  unfold parseSession IbSession.format
  rw [splitOnce_append hdash, Option.bind_some]
  dsimp only
  rw [hopen, Option.bind_some]
  dsimp only
  rw [hclose, Option.bind_some]
  dsimp only
  rw [hdate]
  rfl

/-- One entry adds its window. -/
theorem mem_addSession {sessions : List Window} {piece : List Char} :
    window ∈ addSession sessions piece ↔ window ∈ sessions ∨
      (¬ (PyText.stripChars piece = [] ∨ closedMark <:+: PyText.stripChars piece) ∧
        parseSession (PyText.stripChars piece) = some window) := by
  unfold addSession
  dsimp only
  rw [← List.isEmpty_iff, ← PyText.contains_iff, ← Bool.or_eq_true]
  split
  · rename_i hskip
    exact (or_iff_left fun h => h.1 hskip).symm
  · rename_i hopen
    rw [and_iff_right hopen]
    cases parseSession (PyText.stripChars piece) with
    | none => simp
    | some found =>
      dsimp only
      split
      · rename_i hseen
        refine (or_iff_left_of_imp fun heq => ?_).symm
        rwa [← Option.some.inj heq]
      · rw [List.mem_append, List.mem_singleton, Option.some_inj, eq_comm (a := window)]

theorem mem_foldl_addSession {pieces : List (List Char)} {sessions : List Window} :
    window ∈ pieces.foldl addSession sessions ↔ window ∈ sessions ∨
      ∃ entry ∈ pieces.map PyText.stripChars, ¬ (entry = [] ∨ closedMark <:+: entry) ∧
        parseSession entry = some window := by
  induction pieces generalizing sessions with
  | nil => simp
  | cons piece pieces ih =>
    rw [List.foldl_cons, ih, mem_addSession, List.map_cons, List.exists_mem_cons_iff, or_assoc]

/-- The windows are those of the entries. -/
theorem mem_parseIbHoursString : window ∈ parseIbHoursString hours ↔
    ∃ entry ∈ entries hours, ¬ (entry = [] ∨ closedMark <:+: entry) ∧
      parseSession entry = some window := by
  unfold parseIbHoursString
  split
  · rename_i hnone
    subst hnone
    refine iff_of_false List.not_mem_nil ?_
    rintro ⟨entry, hentry, hopen, -⟩
    obtain rfl : entry = [] := List.mem_singleton.mp hentry
    exact hopen (Or.inl rfl)
  · rw [mem_foldl_addSession, or_iff_right List.not_mem_nil]
    rfl

/-- **The windows are those of the sessions that are listed.** -/
theorem mem_parse_of_wellFormed (hwf : WellFormed hours) :
    window ∈ parseIbHoursString hours ↔ ∃ s, Listed hours s ∧ s.window = window := by
  rw [mem_parseIbHoursString]
  constructor
  · rintro ⟨entry, hentry, hopen, hparse⟩
    rcases hwf entry hentry with rfl | ⟨date, rfl⟩ | ⟨s, rfl⟩
    · exact absurd (Or.inl rfl) hopen
    · exact absurd (Or.inr (List.suffix_append _ _).isInfix) hopen
    · exact ⟨s, hentry, Option.some.inj ((parseSession_format s).symm.trans hparse)⟩
  · rintro ⟨s, hs, rfl⟩
    refine ⟨s.format, hs, ?_, parseSession_format s⟩
    rintro (hnil | hclosed)
    · exact absurd hnil (by simp [IbSession.format])
    · exact not_closed_session hclosed

/-- The windows of a text find its sessions that are shorter than a day. -/
theorem any_inWindow_iff (hwf : WellFormed hours) :
    (parseIbHoursString hours).any (inWindow now) = true ↔
      ∃ s, Listed hours s ∧ ¬ s.FullDay ∧ s.Covers now := by
  rw [List.any_eq_true]
  constructor
  · rintro ⟨window, hwindow, hin⟩
    obtain ⟨s, hs, rfl⟩ := (mem_parse_of_wellFormed hwf).mp hwindow
    exact ⟨s, hs, inWindow_iff.mp hin⟩
  · rintro ⟨s, hs, hin⟩
    exact ⟨s.window, (mem_parse_of_wellFormed hwf).mpr ⟨s, hs, rfl⟩, inWindow_iff.mpr hin⟩

theorem parse_ne_nil (hwf : WellFormed hours) (hsome : ∃ s, Listed hours s) :
    parseIbHoursString hours ≠ [] := by
  obtain ⟨s, hs⟩ := hsome
  exact List.ne_nil_of_mem ((mem_parse_of_wellFormed hwf).mpr ⟨s, hs, rfl⟩)

end Windows

/-! ### Regular hours -/

section RegularHours

variable {zones : String → Option (ℤ → LocalTime)} {cache : HoursCache} {canonicalId : String}
  {tradingHours : Option String} {liquidHours : String} {timeZoneId : Option String}
  {toLocal : ℤ → LocalTime} {ts : ℤ}

/-- What is extracted has the sessions of the liquid hours. -/
theorem extractTradingHours_cases :
    (extractTradingHours tradingHours (some liquidHours) timeZoneId = none ∧
      parseIbHoursString liquidHours = []) ∨
    ∃ hours, extractTradingHours tradingHours (some liquidHours) timeZoneId = some hours ∧
      hours.rth = parseIbHoursString liquidHours ∧ hours.timezone = zoneOf timeZoneId := by
  unfold extractTradingHours
  dsimp only
  split
  · rename_i hnone
    exact Or.inl ⟨rfl, List.isEmpty_iff.mp (Bool.and_eq_true_iff.mp hnone).1⟩
  · exact Or.inr ⟨_, rfl, rfl, rfl⟩

/-- The test of an instrument whose hours were extracted. -/
theorem isInRth_eq
    (hcache : Dict.get cache canonicalId
      = some (extractTradingHours tradingHours (some liquidHours) timeZoneId))
    (hzone : zones (zoneOf timeZoneId) = some toLocal) :
    isInRth zones cache canonicalId ts
      = if (parseIbHoursString liquidHours).isEmpty then true
        else (parseIbHoursString liquidHours).any (inWindow (toLocal ts)) := by
  unfold isInRth isInWindowKind
  rw [hcache]
  rcases @extractTradingHours_cases tradingHours liquidHours timeZoneId with
    ⟨hnone, hempty⟩ | ⟨hours, hsome, hrth, hzoneOf⟩
  · rw [hnone, hempty]
    rfl
  · rw [hsome]
    show (if hours.rth.isEmpty then true
      else isInWindow zones ts hours.rth hours.timezone) = _
    unfold isInWindow
    rw [hrth, hzoneOf, hzone]

/-- **The test of regular hours finds the sessions that are listed**, read as a weekly pattern,
    at a time that no session of 24 hours has for itself.  It is open where none is listed. -/
theorem regular_hours_iff (zones : String → Option (ℤ → LocalTime)) (cache : HoursCache)
    (canonicalId : String) (tradingHours : Option String) (liquidHours : String)
    (timeZoneId : Option String) (toLocal : ℤ → LocalTime) (ts : ℤ)
    (hcache : Dict.get cache canonicalId
      = some (extractTradingHours tradingHours (some liquidHours) timeZoneId))
    (hzone : zones (zoneOf timeZoneId) = some toLocal) (hwf : WellFormed liquidHours) :
    ((∀ s, ¬ Listed liquidHours s) → isInRth zones cache canonicalId ts = true) ∧
    ((∃ s, Listed liquidHours s) →
      (∀ s, Listed liquidHours s → s.Covers (toLocal ts) → s.FullDay →
        ∃ s', Listed liquidHours s' ∧ s'.Covers (toLocal ts) ∧ ¬ s'.FullDay) →
      (isInRth zones cache canonicalId ts = true ↔
        ∃ s, Listed liquidHours s ∧ s.Covers (toLocal ts))) := by
  rw [isInRth_eq hcache hzone]
  constructor
  · intro hnone
    have hempty : parseIbHoursString liquidHours = [] := by
      refine List.eq_nil_iff_forall_not_mem.mpr fun window hwindow => ?_
      obtain ⟨s, hs, -⟩ := (mem_parse_of_wellFormed hwf).mp hwindow
      exact hnone s hs
    rw [hempty]
    rfl
  · intro hsome hshorter
    rw [if_neg (List.isEmpty_iff.not.mpr (parse_ne_nil hwf hsome)), any_inWindow_iff hwf]
    constructor
    · rintro ⟨s, hs, -, hcovers⟩
      exact ⟨s, hs, hcovers⟩
    · rintro ⟨s, hs, hcovers⟩
      by_cases hfull : s.FullDay
      · obtain ⟨s', hs', hcovers', hpart⟩ := hshorter s hs hcovers hfull
        exact ⟨s', hs', hpart, hcovers'⟩
      · exact ⟨s, hs, hfull, hcovers⟩

/-- The local time of UTC. -/
def utc (ts : ℤ) : LocalTime where
  weekday := weekday (ts / dayUs)
  time := ts % dayUs
  weekday_range := by
    unfold weekday
    omega
  time_range := ⟨Int.emod_nonneg _ (by decide), Int.emod_lt_of_pos _ (by decide)⟩

def onlyUtc (zone : String) : Option (ℤ → LocalTime) := if zone = "UTC" then some utc else none

/-- A Monday, 1 June 2026. -/
def firstOfJune : IbDate := ⟨2026, 6, 1, by decide, by decide⟩

/-- Every day is closed: no session is listed, and the test is open. -/
theorem regular_hours_open_without_sessions :
    let liquidHours := "20260601:CLOSED"
    let hours := extractTradingHours (some "20260601:1700-20260602:1600") (some liquidHours) none
    WellFormed liquidHours ∧ (∀ s, ¬ Listed liquidHours s) ∧
      isInRth onlyUtc [("ES", hours)] "ES" (firstOfJune.number * dayUs) = true := by
  intro liquidHours hours
  have hentries : entries liquidHours = [firstOfJune.format ++ closedMark] := by decide +kernel
  refine ⟨?_, fun s hs => ?_, by decide +kernel⟩
  · intro entry hentry
    rw [hentries, List.mem_singleton] at hentry
    exact Or.inr (Or.inl ⟨firstOfJune, hentry⟩)
  · unfold Listed at hs
    rw [hentries, List.mem_singleton] at hs
    have hclosed : closedMark <:+: s.format := hs ▸ (List.suffix_append _ _).isInfix
    exact not_closed_session hclosed

/-- From Monday, 17:00, to Tuesday, 16:00. -/
def mondayOvernight : IbSession where
  opens := ⟨firstOfJune, 17, 0, by decide, by decide⟩
  closes := ⟨⟨2026, 6, 2, by decide, by decide⟩, 16, 0, by decide, by decide⟩
  positive := by decide
  at_most_a_day := by decide

/-- A session over midnight, on the morning behind it. -/
theorem regular_hours_iff_overnight :
    let liquidHours := "20260601:1700-20260602:1600;20260606:CLOSED"
    let hours := extractTradingHours none (some liquidHours) none
    let ts := (firstOfJune.number + 1) * dayUs + 9 * 60 * minuteUs
    isInRth onlyUtc [("ES", hours)] "ES" ts = true ∧
      (isInRth onlyUtc [("ES", hours)] "ES" ts = true ↔
        ∃ s, Listed liquidHours s ∧ s.Covers (utc ts)) := by
  intro liquidHours hours ts
  have hentries : entries liquidHours = [mondayOvernight.format,
      formatYmd 2026 6 6 ++ closedMark] := by decide +kernel
  have hlisted : Listed liquidHours mondayOvernight := by
    unfold Listed
    rw [hentries]
    exact List.mem_cons_self
  have hwf : WellFormed liquidHours := by
    intro entry hentry
    rw [hentries] at hentry
    rcases List.mem_cons.mp hentry with h | h
    · exact Or.inr (Or.inr ⟨mondayOvernight, h⟩)
    · exact Or.inr (Or.inl ⟨⟨2026, 6, 6, by decide, by decide⟩, List.mem_singleton.mp h⟩)
  refine ⟨by decide +kernel, ?_⟩
  refine (regular_hours_iff onlyUtc [("ES", hours)] "ES" none liquidHours none utc ts rfl rfl
    hwf).2 ⟨mondayOvernight, hlisted⟩ fun s hs hcovers hfull => ?_
  exact ⟨mondayOvernight, hlisted, by decide +kernel, by decide +kernel⟩

end RegularHours

end Msai.Instruments
