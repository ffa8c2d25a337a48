import Mathlib.Data.String.Basic
import Mathlib.Tactic
import Reverto.Core.ScheduleGuard

/-!
# The reported opening (`_next_open` of core/schedule_guard.py)

The opening `_next_open` reports against the earliest later minute at which
`is_open` is true, on a calendar with a constant UTC offset. Minutes are counted
from midnight of the current day.
-/

namespace Reverto

namespace NextOpening

/-! ### Times of day as strings -/

/-- `strftime("%H:%M")` of a minute of the day. -/
def hhmm (m : ℕ) : String :=
  String.ofList [Nat.digitChar (m / 60 / 10), Nat.digitChar (m / 60 % 10), ':',
    Nat.digitChar (m % 60 / 10), Nat.digitChar (m % 60 % 10)]

theorem digitChar_lt : ∀ a < 10, ∀ b < 10, (Nat.digitChar a < Nat.digitChar b ↔ a < b) := by
  decide

theorem digitChar_inj : ∀ a < 10, ∀ b < 10, (Nat.digitChar a = Nat.digitChar b ↔ a = b) := by
  decide

theorem hhmm_lt (a b : ℕ) (ha : a < 1440) (hb : b < 1440) : hhmm a < hhmm b ↔ a < b := by
  have hhour := digitChar_lt (a / 60 / 10) (by omega) (b / 60 / 10) (by omega)
  have hhour' := digitChar_inj (a / 60 / 10) (by omega) (b / 60 / 10) (by omega)
  have hunit := digitChar_lt (a / 60 % 10) (by omega) (b / 60 % 10) (by omega)
  have hunit' := digitChar_inj (a / 60 % 10) (by omega) (b / 60 % 10) (by omega)
  have hmin := digitChar_lt (a % 60 / 10) (by omega) (b % 60 / 10) (by omega)
  have hmin' := digitChar_inj (a % 60 / 10) (by omega) (b % 60 / 10) (by omega)
  have hlast := digitChar_lt (a % 60 % 10) (by omega) (b % 60 % 10) (by omega)
  rw [String.lt_iff_toList_lt, hhmm, hhmm, String.toList_ofList, String.toList_ofList]
  simp only [List.cons_lt_cons_iff, hhour, hhour', hunit, hunit', hmin, hmin', hlast, lt_irrefl,
    true_and, false_or, and_false, or_false]
  omega

theorem hhmm_le (a b : ℕ) (ha : a < 1440) (hb : b < 1440) : hhmm a ≤ hhmm b ↔ a ≤ b := by
  rw [← not_lt, hhmm_lt b a hb ha, not_lt]

theorem hhmm_inj (a b : ℕ) (ha : a < 1440) (hb : b < 1440) : hhmm a = hhmm b ↔ a = b := by
  rw [le_antisymm_iff, hhmm_le a b ha hb, hhmm_le b a hb ha, le_antisymm_iff]

/-! ### Moments of the coming week -/

/-- A moment in minutes from midnight of day 0. -/
def moment (day : ℕ → CalendarDay) (k : ℕ) : LocalTime :=
  ⟨fun n => day (k / 1440 + n), hhmm (k % 1440)⟩

/-- A later minute within the next seven days at which `is_open` is true. -/
def Opens (schedule : ScheduleConfig) (day : ℕ → CalendarDay) (now k : ℕ) : Prop :=
  now < k ∧ k ≤ now + 7 * 1440 ∧ ScheduleGuard.isOpen schedule (moment day k) = .ok true

/-- The text for a date and a time. -/
def stamp (date time : String) : String := date ++ " " ++ time

/-- What `_next_open` says when it finds nothing. -/
def noneFound : String := "No upcoming trading window found"

/-- `_next_open` reports the earliest later minute at which the schedule is open,
and that there is none only when there is none. -/
def ReportsEarliest (schedule : ScheduleConfig) (day : ℕ → CalendarDay) (now : ℕ) : Prop :=
  ∃ report, ScheduleGuard.nextOpen schedule (moment day now) = .ok report ∧
    ((report = noneFound ∧ ∀ k, ¬ Opens schedule day now k) ∨
      ∃ k, IsLeast {k | Opens schedule day now k} k ∧
        report = stamp (day (k / 1440)).date (hhmm (k % 1440)))

/-- A window of valid day names and `HH:MM` times. -/
structure ValidWindow (window : ScheduleWindow) : Prop where
  days : ∀ d ∈ window.days, ∃ n, ScheduleGuard.dayMap d.toLower = .ok n
  fromTime : ∃ m < 1440, window.fromTime = hhmm m
  toTime : ∃ m < 1440, window.toTime = hhmm m

/-- Every window of the schedule is valid. -/
def ValidSchedule (schedule : ScheduleConfig) : Prop :=
  ∀ window ∈ schedule.tradingWindows, ValidWindow window

/-! ### The windows of a day -/

/-- The weekdays of a window. -/
def weekdays (window : ScheduleWindow) : List ℕ :=
  window.days.filterMap fun d => (ScheduleGuard.dayMap d.toLower).toOption

/-- The windows of a day, in the order of the list; a blackout date has none. -/
def windowsOf (schedule : ScheduleConfig) (day : CalendarDay) : List ScheduleWindow :=
  if day.date ∈ schedule.blackoutDates then []
  else schedule.tradingWindows.filter fun window => decide (day.weekday ∈ weekdays window)

/-- The windows of the day `ahead` days from now; of today those that start later. -/
def coming (schedule : ScheduleConfig) (day : ℕ → CalendarDay) (now ahead : ℕ) :
    List ScheduleWindow :=
  (windowsOf schedule (day ahead)).filter fun window =>
    decide (ahead = 0 → hhmm now < window.fromTime)

/-- The first minute at which a coming window is open: an overnight window of a later
day is open from midnight. -/
def opening (ahead : ℕ) (window : ScheduleWindow) : String :=
  if 0 < ahead ∧ window.toTime < window.fromTime then hhmm 0 else window.fromTime

/-- The search meets the openings in the order of time: without windows each of the next
seven days is a blackout date; otherwise, on the first day with a coming window, the first
of the list starts no later than any opens, and a week ahead no later than the current time. -/
structure InOrder (schedule : ScheduleConfig) (day : ℕ → CalendarDay) (now : ℕ) : Prop where
  windowless : schedule.tradingWindows = [] →
    ∀ ahead, 0 < ahead → ahead ≤ 7 → (day ahead).date ∈ schedule.blackoutDates
  first : ∀ ahead ≤ 7, (∀ sooner < ahead, coming schedule day now sooner = []) →
    ∀ window rest, coming schedule day now ahead = window :: rest →
      (∀ other ∈ window :: rest, window.fromTime ≤ opening ahead other) ∧
        (ahead = 7 → window.fromTime ≤ hhmm now)

/-! ### The source's loops on valid windows -/

theorem timeInWindow_hhmm (m f t : ℕ) (hm : m < 1440) (hf : f < 1440) (ht : t < 1440) :
    ScheduleGuard.timeInWindow (hhmm m) (hhmm f) (hhmm t) = true ↔
      if f ≤ t then f ≤ m ∧ m ≤ t else f ≤ m ∨ m ≤ t := by
  rw [ScheduleGuard.timeInWindow]
  simp only [hhmm_le f t hf ht, hhmm_le f m hf hm, hhmm_le m t hm ht]
  split
  · exact decide_eq_true_iff
  · exact decide_eq_true_iff

theorem mapM_dayMap (days : List String)
    (h : ∀ d ∈ days, ∃ n, ScheduleGuard.dayMap d.toLower = .ok n) :
    (days.mapM fun d => ScheduleGuard.dayMap d.toLower) =
      .ok (days.filterMap fun d => (ScheduleGuard.dayMap d.toLower).toOption) := by
  induction days with
  | nil => rfl
  | cons d days ih =>
    obtain ⟨n, hn⟩ := h d List.mem_cons_self
    have htail := ih fun e he => h e (List.mem_cons_of_mem d he)
    have hsome : (ScheduleGuard.dayMap d.toLower).toOption = some n := by
      rw [hn]
      rfl
    rw [List.mapM_cons, hn, List.filterMap_cons]
    simp only [bind, Except.bind, htail, hsome]
    rfl

theorem windowDays_valid (window : ScheduleWindow) (h : ValidWindow window) :
    ScheduleGuard.windowDays window = .ok (weekdays window) :=
  mapM_dayMap window.days h.days

theorem inSomeWindow_valid (now : LocalTime) (windows : List ScheduleWindow)
    (h : ∀ window ∈ windows, ValidWindow window) :
    ScheduleGuard.inSomeWindow now windows =
      .ok ((windows.filter fun window => decide ((now.day 0).weekday ∈ weekdays window)).any
        fun window => ScheduleGuard.timeInWindow now.time window.fromTime window.toTime) := by
  induction windows with
  | nil => rfl
  | cons window windows ih =>
    have htail := ih fun v hv => h v (List.mem_cons_of_mem window hv)
    have hdays := windowDays_valid window (h window List.mem_cons_self)
    simp only [ScheduleGuard.inSomeWindow, hdays, bind, Except.bind, htail]
    by_cases hday : (now.day 0).weekday ∈ weekdays window
    · rw [List.filter_cons_of_pos (by simpa using hday), List.any_cons]
      cases htime : ScheduleGuard.timeInWindow now.time window.fromTime window.toTime with
      | true => simp [hday, pure, Except.pure]
      | false => simp [hday]
    · rw [List.filter_cons_of_neg (by simpa using hday), if_neg fun h => hday h.1]

theorem nextOpenDay_valid (now : LocalTime) (ahead : ℕ) (windows : List ScheduleWindow)
    (h : ∀ window ∈ windows, ValidWindow window) :
    ScheduleGuard.nextOpenDay now ahead windows =
      .ok (((windows.filter fun window => decide ((now.day ahead).weekday ∈ weekdays window)).filter
        fun window => decide (ahead = 0 → now.time < window.fromTime)).head?.map
          fun window => stamp (now.day ahead).date window.fromTime) := by
  induction windows with
  | nil => rfl
  | cons window windows ih =>
    have htail := ih fun v hv => h v (List.mem_cons_of_mem window hv)
    have hdays := windowDays_valid window (h window List.mem_cons_self)
    simp only [ScheduleGuard.nextOpenDay, hdays, bind, Except.bind, htail]
    by_cases hday : (now.day ahead).weekday ∈ weekdays window
    · rw [List.filter_cons_of_pos (by simpa using hday)]
      by_cases hlater : ahead = 0 → now.time < window.fromTime
      · rw [List.filter_cons, if_pos (decide_eq_true hlater), if_pos ⟨hday, hlater⟩]
        rfl
      · rw [List.filter_cons, if_neg fun h => hlater (of_decide_eq_true h),
          if_neg fun h => hlater h.2]
    · rw [List.filter_cons_of_neg (by simpa using hday), if_neg fun h => hday h.1]

section Schedule

variable {schedule : ScheduleConfig} {day : ℕ → CalendarDay} {now : ℕ}

theorem moment_today (hnow : now < 1440) : moment day now = ⟨day, hhmm now⟩ := by
  rw [moment, Nat.div_eq_of_lt hnow, Nat.mod_eq_of_lt hnow]
  simp only [Nat.zero_add]

theorem mem_windowsOf (d : CalendarDay) (window : ScheduleWindow) :
    window ∈ windowsOf schedule d ↔ d.date ∉ schedule.blackoutDates ∧
      window ∈ schedule.tradingWindows ∧ d.weekday ∈ weekdays window := by
  rw [windowsOf]
  split
  · next hblack => simp [hblack]
  · next hblack => simp [hblack]

theorem isOpen_iff (hvalid : ValidSchedule schedule) (k : ℕ) :
    ScheduleGuard.isOpen schedule (moment day k) = .ok true ↔
      (schedule.tradingWindows = [] ∧ (day (k / 1440)).date ∉ schedule.blackoutDates) ∨
        ∃ window ∈ windowsOf schedule (day (k / 1440)),
          ScheduleGuard.timeInWindow (hhmm (k % 1440)) window.fromTime window.toTime = true := by
  have hday : (moment day k).day 0 = day (k / 1440) := rfl
  rw [ScheduleGuard.isOpen, hday, inSomeWindow_valid _ _ hvalid]
  by_cases hblack : (day (k / 1440)).date ∈ schedule.blackoutDates
  · simp [hblack, windowsOf]
  · by_cases hnone : schedule.tradingWindows = []
    · simp [hblack, hnone]
    · rw [if_neg hblack, if_neg hnone, hday]
      simp [hblack, hnone, windowsOf, moment, and_assoc]

/-- The report for the first day with a coming window. -/
def found (schedule : ScheduleConfig) (day : ℕ → CalendarDay) (now ahead : ℕ) : Option String :=
  (coming schedule day now ahead).head?.map fun window => stamp (day ahead).date window.fromTime

theorem nextOpenFrom_eq (hvalid : ValidSchedule schedule) (days : List ℕ) :
    ScheduleGuard.nextOpenFrom schedule ⟨day, hhmm now⟩ days =
      .ok ((days.findSome? (found schedule day now)).getD noneFound) := by
  induction days with
  | nil => rfl
  | cons ahead days ih =>
    rw [ScheduleGuard.nextOpenFrom, ih, nextOpenDay_valid _ ahead _ hvalid, List.findSome?_cons]
    by_cases hblack : (day ahead).date ∈ schedule.blackoutDates
    · simp [hblack, found, coming, windowsOf]
    · have hcoming : coming schedule day now ahead =
          (schedule.tradingWindows.filter fun window =>
            decide ((day ahead).weekday ∈ weekdays window)).filter
              fun window => decide (ahead = 0 → hhmm now < window.fromTime) := by
        rw [coming, windowsOf, if_neg hblack]
      simp only [if_neg hblack, bind, Except.bind, found, ← hcoming]
      cases (coming schedule day now ahead).head? with
      | none => rfl
      | some window => rfl

theorem nextOpen_eq (hvalid : ValidSchedule schedule) (hnow : now < 1440) :
    ScheduleGuard.nextOpen schedule (moment day now) =
      .ok (((List.range 8).findSome? (found schedule day now)).getD noneFound) := by
  rw [moment_today hnow]
  exact nextOpenFrom_eq hvalid (List.range 8)

/-! ### The openings of a day -/

theorem coming_valid (hvalid : ValidSchedule schedule) (ahead : ℕ) (window : ScheduleWindow)
    (h : window ∈ coming schedule day now ahead) : ValidWindow window :=
  hvalid window ((mem_windowsOf (day ahead) window).mp (List.mem_filter.mp h).1).2.1

theorem opening_today (window : ScheduleWindow) : opening 0 window = window.fromTime := by
  rw [opening, if_neg fun h => absurd h.1 (lt_irrefl 0)]

theorem opening_time (ahead : ℕ) (window : ScheduleWindow) (h : ValidWindow window) :
    ∃ m < 1440, opening ahead window = hhmm m ∧
      ScheduleGuard.timeInWindow (hhmm m) window.fromTime window.toTime = true := by
  obtain ⟨f, hf, hfrom⟩ := h.fromTime
  obtain ⟨t, ht, hto⟩ := h.toTime
  rw [opening, hfrom, hto]
  simp only [hhmm_lt t f ht hf]
  by_cases hnight : 0 < ahead ∧ t < f
  · rw [if_pos hnight]
    refine ⟨0, by omega, rfl, (timeInWindow_hhmm 0 f t (by omega) hf ht).mpr ?_⟩
    rw [if_neg (by omega)]
    omega
  · rw [if_neg hnight]
    refine ⟨f, hf, rfl, (timeInWindow_hhmm f f t hf hf ht).mpr ?_⟩
    split
    · omega
    · omega

theorem from_time (window : ScheduleWindow) (h : ValidWindow window) :
    ∃ f < 1440, window.fromTime = hhmm f ∧
      ScheduleGuard.timeInWindow (hhmm f) window.fromTime window.toTime = true := by
  have htime := opening_time 0 window h
  rw [opening_today] at htime
  exact htime

/-- A minute at which a coming window is open. -/
theorem opens_of_coming (hvalid : ValidSchedule schedule) (hnow : now < 1440) (ahead m : ℕ)
    (window : ScheduleWindow) (hcoming : window ∈ coming schedule day now ahead) (hm : m < 1440)
    (hopening : window.fromTime = hhmm m ∨ opening ahead window = hhmm m)
    (htime : ScheduleGuard.timeInWindow (hhmm m) window.fromTime window.toTime = true)
    (hweek : ahead * 1440 + m ≤ now + 7 * 1440) : Opens schedule day now (ahead * 1440 + m) := by
  obtain ⟨hwindow, hlater⟩ := List.mem_filter.mp hcoming
  have hday : (ahead * 1440 + m) / 1440 = ahead := by omega
  have hminute : (ahead * 1440 + m) % 1440 = m := by omega
  refine ⟨?_, hweek, (isOpen_iff hvalid _).mpr (Or.inr ⟨window, ?_, ?_⟩)⟩
  · cases ahead with
    | zero =>
      have hlt := of_decide_eq_true hlater rfl
      rw [opening_today, or_self] at hopening
      rw [hopening, hhmm_lt now m hnow hm] at hlt
      omega
    | succ ahead => omega
  · rw [hday]
    exact hwindow
  · rw [hminute]
    exact htime

/-- At a minute at which the schedule is open a window of its day has opened. -/
theorem coming_of_opens (hvalid : ValidSchedule schedule) (hnow : now < 1440)
    (hclosed : ScheduleGuard.isOpen schedule (moment day now) = .ok false)
    (hwindows : schedule.tradingWindows ≠ []) (k : ℕ) (h : Opens schedule day now k) :
    ∃ window ∈ coming schedule day now (k / 1440), opening (k / 1440) window ≤ hhmm (k % 1440) := by
  obtain ⟨hlater, -, hopen⟩ := h
  rcases (isOpen_iff hvalid k).mp hopen with ⟨hnone, -⟩ | ⟨window, hwindow, htime⟩
  · exact absurd hnone hwindows
  · have hwindowValid := hvalid window ((mem_windowsOf _ window).mp hwindow).2.1
    obtain ⟨f, hf, hfrom⟩ := hwindowValid.fromTime
    obtain ⟨t, ht, hto⟩ := hwindowValid.toTime
    have hminute : k % 1440 < 1440 := Nat.mod_lt k (by omega)
    rw [hfrom, hto, timeInWindow_hhmm _ f t hminute hf ht] at htime
    cases hahead : k / 1440 with
    | zero =>
      have htoday : ¬ ScheduleGuard.timeInWindow (hhmm now) window.fromTime window.toTime = true := by
        intro hin
        have hdayNow : now / 1440 = k / 1440 := by omega
        have hminuteNow : now % 1440 = now := by omega
        have hopenNow : ScheduleGuard.isOpen schedule (moment day now) = .ok true :=
          (isOpen_iff hvalid now).mpr (Or.inr ⟨window, hdayNow ▸ hwindow, hminuteNow.symm ▸ hin⟩)
        rw [hclosed] at hopenNow
        cases hopenNow
      rw [hfrom, hto, timeInWindow_hhmm now f t hnow hf ht] at htoday
      have hstart : now < f ∧ f ≤ k % 1440 := by
        split at htime
        · rw [if_pos (by assumption)] at htoday
          omega
        · rw [if_neg (by assumption)] at htoday
          omega
      refine ⟨window, List.mem_filter.mpr ⟨hahead ▸ hwindow, decide_eq_true fun _ => ?_⟩, ?_⟩
      · rw [hfrom, hhmm_lt now f hnow hf]
        exact hstart.1
      · rw [opening_today, hfrom, hhmm_le f _ hf hminute]
        exact hstart.2
    | succ ahead =>
      refine ⟨window, List.mem_filter.mpr ⟨hahead ▸ hwindow, decide_eq_true fun h => ?_⟩, ?_⟩
      · cases h
      · rw [opening, hfrom, hto]
        simp only [hhmm_lt t f ht hf]
        split
        · rw [hhmm_le 0 _ (by omega) hminute]
          omega
        · rw [hhmm_le f _ hf hminute]
          split at htime
          · omega
          · omega

/-! ### The report -/

theorem stamp_inj (date a b : String) (h : stamp date a = stamp date b) : a = b := by
  have hlist := congrArg String.toList h
  simp only [stamp, String.toList_append] at hlist
  exact String.toList_inj.mp (List.append_cancel_left hlist)

theorem digitChar_ne_d : ∀ a < 10, Nat.digitChar a ≠ 'd' := by decide

theorem stamp_ne_noneFound (date : String) (m : ℕ) : stamp date (hhmm m) ≠ noneFound := by
  intro h
  have hlist := congrArg (fun s => s.toList.getLast?) h
  have hnone : noneFound.toList.getLast? = some 'd' := by decide
  have htime : (hhmm m).toList.getLast? = some (Nat.digitChar (m % 60 % 10)) := by
    rw [hhmm, String.toList_ofList]
    rfl
  simp only [stamp, String.toList_append, List.getLast?_append, htime, hnone, Option.some_or] at hlist
  exact digitChar_ne_d (m % 60 % 10) (by omega) (Option.some.inj hlist)

/-- The first value found on a range. -/
theorem findSome?_range {α : Type} (f : ℕ → Option α) (n : ℕ) :
    (∀ i < n, f i = none) ∨
      ∃ i < n, (∀ j < i, f j = none) ∧ (f i).isSome ∧ (List.range n).findSome? f = f i := by
  induction n with
  | zero => exact Or.inl fun i hi => absurd hi (Nat.not_lt_zero i)
  | succ n ih =>
    rcases ih with hnone | ⟨i, hi, hbefore, hsome, hfound⟩
    · have hrange : (List.range n).findSome? f = none :=
        List.findSome?_eq_none_iff.mpr fun i hi => hnone i (List.mem_range.mp hi)
      cases hn : f n with
      | none =>
        refine Or.inl fun i hi => ?_
        rcases Nat.lt_succ_iff_lt_or_eq.mp hi with hi | rfl
        · exact hnone i hi
        · exact hn
      | some a =>
        refine Or.inr ⟨n, Nat.lt_succ_self n, hnone, by rw [hn]; rfl, ?_⟩
        rw [List.range_succ, List.findSome?_append, hrange]
        simp [hn]
    · refine Or.inr ⟨i, Nat.lt_succ_of_lt hi, hbefore, hsome, ?_⟩
      obtain ⟨a, ha⟩ := Option.isSome_iff_exists.mp hsome
      rw [List.range_succ, List.findSome?_append, hfound, ha]
      rfl

theorem found_none (ahead : ℕ) :
    found schedule day now ahead = none ↔ coming schedule day now ahead = [] := by
  rw [found, Option.map_eq_none_iff, List.head?_eq_none_iff]

/-- Without a coming window on the eight days nothing is reported and nothing opens. -/
theorem opens_none (hvalid : ValidSchedule schedule) (hnow : now < 1440)
    (hclosed : ScheduleGuard.isOpen schedule (moment day now) = .ok false)
    (hwindows : schedule.tradingWindows ≠ [])
    (hnone : ∀ ahead < 8, coming schedule day now ahead = []) (k : ℕ) :
    ¬ Opens schedule day now k := by
  intro h
  obtain ⟨window, hcoming, -⟩ := coming_of_opens hvalid hnow hclosed hwindows k h
  have hday : k / 1440 < 8 := by
    have hweek := h.2.1
    omega
  rw [hnone _ hday] at hcoming
  cases hcoming

theorem windowless_coming (hwindows : schedule.tradingWindows = []) (ahead : ℕ) :
    coming schedule day now ahead = [] := by
  rw [coming, windowsOf, hwindows]
  split
  · rfl
  · rfl

/-- A schedule without windows is open on every day that is no blackout date. -/
theorem windowless_opens_iff (hvalid : ValidSchedule schedule) (hnow : now < 1440)
    (hclosed : ScheduleGuard.isOpen schedule (moment day now) = .ok false)
    (hwindows : schedule.tradingWindows = []) :
    (∀ k, ¬ Opens schedule day now k) ↔
      ∀ ahead, 0 < ahead → ahead ≤ 7 → (day ahead).date ∈ schedule.blackoutDates := by
  constructor
  · intro h ahead hpos hweek
    by_contra hopen
    have hday : ahead * 1440 / 1440 = ahead := by omega
    refine h (ahead * 1440) ⟨by omega, by omega, (isOpen_iff hvalid _).mpr (Or.inl ⟨hwindows, ?_⟩)⟩
    rw [hday]
    exact hopen
  · intro h k hopens
    obtain ⟨hlater, hweek, hopen⟩ := hopens
    rcases (isOpen_iff hvalid k).mp hopen with ⟨-, hdate⟩ | ⟨window, hwindow, -⟩
    · by_cases htoday : k / 1440 = 0
      · have hnowOpen : ScheduleGuard.isOpen schedule (moment day now) = .ok true :=
          (isOpen_iff hvalid now).mpr (Or.inl ⟨hwindows, by
            rw [Nat.div_eq_of_lt hnow]
            rw [htoday] at hdate
            exact hdate⟩)
        rw [hclosed] at hnowOpen
        cases hnowOpen
      · exact hdate (h (k / 1440) (by omega) (by omega))
    · have hin := ((mem_windowsOf _ window).mp hwindow).2.1
      rw [hwindows] at hin
      cases hin

section First

variable (hvalid : ValidSchedule schedule) (hnow : now < 1440)
  (hclosed : ScheduleGuard.isOpen schedule (moment day now) = .ok false)
  (hwindows : schedule.tradingWindows ≠ []) {ahead : ℕ} (hweek : ahead ≤ 7)
  (hsooner : ∀ sooner < ahead, coming schedule day now sooner = [])
include hvalid hnow hclosed hwindows hweek hsooner

omit hweek in
theorem day_le_of_opens (k : ℕ) (h : Opens schedule day now k) : ahead ≤ k / 1440 := by
  by_contra hlt
  obtain ⟨window, hcoming, -⟩ := coming_of_opens hvalid hnow hclosed hwindows k h
  rw [hsooner _ (not_le.mp hlt)] at hcoming
  cases hcoming

/-- The earliest opening lies on the first day with a coming window. -/
theorem day_of_least (k m : ℕ) (window : ScheduleWindow)
    (hcoming : window ∈ coming schedule day now ahead) (hm : m < 1440)
    (hfrom : window.fromTime = hhmm m)
    (htime : ScheduleGuard.timeInWindow (hhmm m) window.fromTime window.toTime = true)
    (hleast : IsLeast {k | Opens schedule day now k} k) : k / 1440 = ahead := by
  have hday := day_le_of_opens hvalid hnow hclosed hwindows hsooner k hleast.1
  have hbound : k ≤ now + 7 * 1440 := hleast.1.2.1
  by_cases hlast : ahead = 7
  · omega
  · have hopens := opens_of_coming hvalid hnow ahead m window hcoming hm (Or.inl hfrom) htime
      (by omega)
    have hle := hleast.2 hopens
    omega

/-- On the first day with a coming window the first of the list is reported rightly exactly
when nothing opens before it. -/
theorem report_iff (window : ScheduleWindow) (rest : List ScheduleWindow)
    (hcoming : coming schedule day now ahead = window :: rest) :
    (∃ k, IsLeast {k | Opens schedule day now k} k ∧
        stamp (day ahead).date window.fromTime = stamp (day (k / 1440)).date (hhmm (k % 1440))) ↔
      (∀ other ∈ window :: rest, window.fromTime ≤ opening ahead other) ∧
        (ahead = 7 → window.fromTime ≤ hhmm now) := by
  have hmem : window ∈ coming schedule day now ahead := by
    rw [hcoming]
    exact List.mem_cons_self
  obtain ⟨f, hf, hfrom, htime⟩ := from_time window (coming_valid hvalid ahead window hmem)
  have hpart : ∀ m < 1440, (ahead * 1440 + m) / 1440 = ahead ∧ (ahead * 1440 + m) % 1440 = m :=
    fun m hm => ⟨by omega, by omega⟩
  constructor
  · intro ⟨k, hleast, hreport⟩
    have hday := day_of_least hvalid hnow hclosed hwindows hweek hsooner k f window hmem hf hfrom
      htime hleast
    have hbound : k ≤ now + 7 * 1440 := hleast.1.2.1
    rw [hday] at hreport
    have hminute : f = k % 1440 := by
      have heq := stamp_inj _ _ _ hreport
      rw [hfrom] at heq
      exact (hhmm_inj f _ hf (by omega)).mp heq
    refine ⟨fun other hother => ?_, fun hlast => ?_⟩
    · rw [← hcoming] at hother
      obtain ⟨m, hm, hopening, hin⟩ := opening_time ahead other (coming_valid hvalid ahead other hother)
      rw [hfrom, hopening, hhmm_le f m hf hm]
      by_cases hwithin : ahead * 1440 + m ≤ now + 7 * 1440
      · have hle := hleast.2
          (opens_of_coming hvalid hnow ahead m other hother hm (Or.inr hopening) hin hwithin)
        omega
      · omega
    · rw [hfrom, hhmm_le f now hf hnow]
      omega
  · intro ⟨hfirst, hlast⟩
    have hwithin : ahead * 1440 + f ≤ now + 7 * 1440 := by
      by_cases hseven : ahead = 7
      · have hle := hlast hseven
        rw [hfrom, hhmm_le f now hf hnow] at hle
        omega
      · omega
    refine ⟨ahead * 1440 + f, ⟨?_, fun k hopens => ?_⟩, ?_⟩
    · exact opens_of_coming hvalid hnow ahead f window hmem hf (Or.inl hfrom) htime hwithin
    · have hday := day_le_of_opens hvalid hnow hclosed hwindows hsooner k hopens
      by_cases hsame : k / 1440 = ahead
      · obtain ⟨other, hother, hle⟩ := coming_of_opens hvalid hnow hclosed hwindows k hopens
        rw [hsame, hcoming] at hother
        rw [hsame] at hle
        have hfk := (hfirst other hother).trans hle
        rw [hfrom, hhmm_le f _ hf (by omega)] at hfk
        omega
      · omega
    · rw [(hpart f hf).1, (hpart f hf).2, hfrom]

end First

theorem reportsEarliest_eq (report : String)
    (hreport : ScheduleGuard.nextOpen schedule (moment day now) = .ok report) :
    ReportsEarliest schedule day now ↔
      (report = noneFound ∧ ∀ k, ¬ Opens schedule day now k) ∨
        ∃ k, IsLeast {k | Opens schedule day now k} k ∧
          report = stamp (day (k / 1440)).date (hhmm (k % 1440)) := by
  constructor
  · intro ⟨other, hother, h⟩
    rw [hreport] at hother
    obtain rfl := Except.ok.inj hother
    exact h
  · intro h
    exact ⟨report, hreport, h⟩

/-- Without a coming window the report is right exactly when nothing opens. -/
theorem reports_none_iff (hvalid : ValidSchedule schedule) (hnow : now < 1440)
    (hclosed : ScheduleGuard.isOpen schedule (moment day now) = .ok false)
    (hcoming : ∀ ahead < 8, coming schedule day now ahead = []) :
    ReportsEarliest schedule day now ↔ InOrder schedule day now := by
  have hnext : ScheduleGuard.nextOpen schedule (moment day now) = _ := nextOpen_eq hvalid hnow
  have hrange : (List.range 8).findSome? (found schedule day now) = none :=
    List.findSome?_eq_none_iff.mpr fun i hi =>
      (found_none i).mpr (hcoming i (List.mem_range.mp hi))
  rw [hrange] at hnext
  rw [reportsEarliest_eq noneFound hnext]
  constructor
  · intro h
    have hnothing : ∀ k, ¬ Opens schedule day now k := by
      rcases h with ⟨-, h⟩ | ⟨k, -, hstamp⟩
      · exact h
      · exact absurd hstamp.symm (stamp_ne_noneFound _ _)
    refine ⟨fun hw => (windowless_opens_iff hvalid hnow hclosed hw).mp hnothing,
      fun ahead hle _ window rest hcons => ?_⟩
    rw [hcoming ahead (by omega)] at hcons
    cases hcons
  · intro h
    refine Or.inl ⟨rfl, ?_⟩
    by_cases hw : schedule.tradingWindows = []
    · exact (windowless_opens_iff hvalid hnow hclosed hw).mpr (h.windowless hw)
    · exact opens_none hvalid hnow hclosed hw hcoming

/-- The condition on the first day with a coming window is one on that day alone. -/
theorem inOrder_iff (hwindows : schedule.tradingWindows ≠ []) (ahead : ℕ) (hweek : ahead ≤ 7)
    (hsooner : ∀ sooner < ahead, coming schedule day now sooner = []) (window : ScheduleWindow)
    (rest : List ScheduleWindow) (hcoming : coming schedule day now ahead = window :: rest) :
    InOrder schedule day now ↔
      (∀ other ∈ window :: rest, window.fromTime ≤ opening ahead other) ∧
        (ahead = 7 → window.fromTime ≤ hhmm now) := by
  constructor
  · intro h
    exact h.first ahead hweek hsooner window rest hcoming
  · intro h
    refine ⟨fun hw => absurd hw hwindows, fun other _ hbefore v vs hv => ?_⟩
    have hsame : other = ahead := by
      rcases Nat.lt_trichotomy other ahead with hlt | heq | hgt
      · rw [hsooner other hlt] at hv
        cases hv
      · exact heq
      · rw [hbefore ahead hgt] at hcoming
        cases hcoming
    subst hsame
    rw [hcoming] at hv
    obtain ⟨rfl, rfl⟩ := List.cons.inj hv
    exact h

/-- `_next_open` reports the earliest opening exactly when its search meets the openings in
the order of time. -/
theorem reportsEarliest_iff (schedule : ScheduleConfig) (hvalid : ValidSchedule schedule)
    (day : ℕ → CalendarDay) (now : ℕ) (hnow : now < 1440)
    (hclosed : ScheduleGuard.isOpen schedule (moment day now) = .ok false) :
    ReportsEarliest schedule day now ↔ InOrder schedule day now := by
  rcases findSome?_range (found schedule day now) 8 with hnone | ⟨ahead, hahead, hsooner, hsome, hfound⟩
  · exact reports_none_iff hvalid hnow hclosed fun ahead hahead =>
      (found_none ahead).mp (hnone ahead hahead)
  · have hempty : ∀ sooner < ahead, coming schedule day now sooner = [] := fun sooner hlt =>
      (found_none sooner).mp (hsooner sooner hlt)
    have hwindows : schedule.tradingWindows ≠ [] := by
      intro hw
      rw [(found_none ahead).mpr (windowless_coming hw ahead)] at hsome
      cases hsome
    cases hcoming : coming schedule day now ahead with
    | nil =>
      rw [(found_none ahead).mpr hcoming] at hsome
      cases hsome
    | cons window rest =>
      have hnext : ScheduleGuard.nextOpen schedule (moment day now) = _ := nextOpen_eq hvalid hnow
      have hreport : found schedule day now ahead =
          some (stamp (day ahead).date window.fromTime) := by
        rw [found, hcoming]
        rfl
      rw [hfound, hreport] at hnext
      rw [reportsEarliest_eq _ hnext, inOrder_iff hwindows ahead (by omega) hempty window rest hcoming,
        ← report_iff hvalid hnow hclosed hwindows (by omega) hempty window rest hcoming]
      constructor
      · intro h
        rcases h with ⟨hstamp, -⟩ | h
        · obtain ⟨f, -, hfrom, -⟩ := from_time window
            (coming_valid hvalid ahead window (by rw [hcoming]; exact List.mem_cons_self))
          rw [Option.getD_some, hfrom] at hstamp
          exact absurd hstamp (stamp_ne_noneFound _ f)
        · exact h
      · intro h
        exact Or.inr h

end Schedule

/-- The days from Monday 2025-01-06 on. -/
def fromMonday : ℕ → CalendarDay := fun n =>
  ⟨"2025-01-" ++ String.ofList [Nat.digitChar ((6 + n) / 10), Nat.digitChar ((6 + n) % 10)], n % 7⟩

/-- Two windows of Monday, the later one first. -/
def afternoonFirst : ScheduleConfig :=
  { enabled := true, tradingWindows := [⟨["mon"], "13:00", "15:00"⟩, ⟨["mon"], "09:00", "11:00"⟩] }

theorem valid_afternoonFirst : ValidSchedule afternoonFirst := by
  have hdays : ∀ d ∈ ["mon"], ∃ n, ScheduleGuard.dayMap d.toLower = .ok n := by
    intro d hd
    rw [List.mem_singleton.mp hd]
    exact ⟨0, by decide +kernel⟩
  intro window hw
  rcases List.mem_cons.mp hw with rfl | hw
  · exact ⟨hdays, ⟨780, by omega, by decide +kernel⟩, ⟨900, by omega, by decide +kernel⟩⟩
  · rw [List.mem_singleton.mp hw]
    exact ⟨hdays, ⟨540, by omega, by decide +kernel⟩, ⟨660, by omega, by decide +kernel⟩⟩

theorem reportsEarliest_iff_afternoonFirst :
    ReportsEarliest afternoonFirst fromMonday 480 ↔ InOrder afternoonFirst fromMonday 480 :=
  reportsEarliest_iff afternoonFirst valid_afternoonFirst fromMonday 480 (by omega)
    (by decide +kernel)

/-- At 08:00 the opening of 13:00 is reported although the schedule opens at 09:00. -/
theorem not_reportsEarliest_afternoonFirst :
    ¬ ∀ schedule, ValidSchedule schedule → ∀ (day : ℕ → CalendarDay), ∀ now < 1440,
      ScheduleGuard.isOpen schedule (moment day now) = .ok false →
        ReportsEarliest schedule day now := by
  intro h
  have hreport : ScheduleGuard.nextOpen afternoonFirst (moment fromMonday 480) =
      .ok (stamp "2025-01-06" (hhmm 780)) := by decide +kernel
  have hopens : Opens afternoonFirst fromMonday 480 540 := ⟨by omega, by omega, by decide +kernel⟩
  have hearliest := h afternoonFirst valid_afternoonFirst fromMonday 480 (by omega)
    (by decide +kernel)
  rcases (reportsEarliest_eq _ hreport).mp hearliest with ⟨hstamp, -⟩ | ⟨k, hleast, hstamp⟩
  · exact stamp_ne_noneFound _ _ hstamp
  · have hle := hleast.2 hopens
    have hday : k / 1440 = 0 := by omega
    have hdate : (fromMonday (k / 1440)).date = "2025-01-06" := by
      rw [hday]
      decide +kernel
    rw [hdate] at hstamp
    have hminute := (hhmm_inj 780 _ (by omega) (by omega)).mp (stamp_inj _ _ _ hstamp)
    omega

end NextOpening

end Reverto
