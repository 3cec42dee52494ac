import Mathlib.Tactic.Linarith
import TenantReports.Calendar.Region
import TenantReports.Proofs.Calendar.Date

/-!
A later time by the wall clock of a region is later in universal time too, although clocks are put
back once a year.
-/

namespace TenantReports

/-- Clocks of regions are less than a day away from universal time, and where they change at one
in universal time they do so within a day of their own. -/
structure Region.IsModerate (region : Region) : Prop where
  low : -1440 ≤ region.standard
  high : region.standard ≤ 1440
  european : region.summer = .european → 0 ≤ region.standard ∧ region.standard ≤ 1200

theorem Region.isModerate_of_ofName? {name : String} {region : Region}
    (h : Region.ofName? name = some region) : region.IsModerate := by
  have hall : ∀ entry ∈ known, -1440 ≤ entry.2.standard ∧ entry.2.standard ≤ 1440 ∧
      (entry.2.summer = .european → 0 ≤ entry.2.standard ∧ entry.2.standard ≤ 1200) := by decide
  obtain ⟨before, after, heq, -⟩ := List.lookup_eq_some_iff.mp h
  have hmem : (name, region) ∈ known := by
    rw [heq]
    exact List.mem_append_right _ (List.mem_cons_self ..)
  obtain ⟨hlow, hhigh, heuropean⟩ := hall _ hmem
  exact ⟨hlow, hhigh, heuropean⟩

theorem Date.sundayFrom_bounds (d : Date) :
    d.ordinal ≤ d.sundayFrom ∧ d.sundayFrom ≤ d.ordinal + 6 := by
  unfold sundayFrom weekday
  omega

namespace Region

variable {region : Region}

/-- Summer lies well within its year, and the hour that is shown twice lies within a day. -/
theorem summerOf_bounds (hmoderate : region.IsModerate) (hsummer : region.summer ≠ .none)
    (year : Nat) :
    ((daysBeforeYear year : Int) + 42) * microsPerDay ≤ (region.summerOf year).1 ∧
    (region.summerOf year).1 ≤ (region.summerOf year).2 ∧
    (region.summerOf year).2 + microsPerHour ≤
      ((daysBeforeYear year : Int) + daysInYear year - 42) * microsPerDay ∧
    ∃ day : Int, day * microsPerDay ≤ (region.summerOf year).2 + region.standardMicros ∧
      (region.summerOf year).2 + region.standardMicros + microsPerHour ≤
        (day + 1) * microsPerDay := by
  obtain ⟨hlow, hhigh, heuropean⟩ := hmoderate
  obtain ⟨hmarch, hoctober, hnovember, -⟩ := daysBeforeMonth_eq year
  have hyear : 365 ≤ daysInYear year ∧ daysInYear year ≤ 366 := by
    unfold daysInYear
    split
    · exact ⟨by omega, by omega⟩
    · exact ⟨by omega, by omega⟩
  have hordinal : ∀ month day, (Date.mk year month day).ordinal =
      daysBeforeYear year + daysBeforeMonth year month + day := fun _ _ => rfl
  unfold summerOf standardMicros microsPerHour microsPerMinute microsPerDay
  cases hcase : region.summer with
  | none => exact absurd hcase hsummer
  | american =>
      have hfirst := Date.sundayFrom_bounds ⟨year, 3, 8⟩
      have hlast := Date.sundayFrom_bounds ⟨year, 11, 1⟩
      rw [hordinal] at hfirst hlast
      simp only [SummerTime.days]
      generalize Date.sundayFrom ⟨year, 3, 8⟩ = first at *
      generalize Date.sundayFrom ⟨year, 11, 1⟩ = last at *
      refine ⟨by omega, by omega, by omega, (last : Int), by omega, by omega⟩
  | european =>
      have hstandard := heuropean hcase
      have hfirst := Date.sundayFrom_bounds ⟨year, 3, 25⟩
      have hlast := Date.sundayFrom_bounds ⟨year, 10, 25⟩
      rw [hordinal] at hfirst hlast
      simp only [SummerTime.days, Date.lastSunday]
      generalize Date.sundayFrom ⟨year, 3, 25⟩ = first at *
      generalize Date.sundayFrom ⟨year, 10, 25⟩ = last at *
      refine ⟨by omega, by omega, by omega, (last : Int), by omega, by omega⟩

theorem year_of_instant {instant : Int} {year : Nat} (hyear : 1 ≤ year)
    (hfirst : ((daysBeforeYear year : Int) + 1) * microsPerDay ≤ instant)
    (hlast : instant < ((daysBeforeYear year : Int) + daysInYear year + 1) * microsPerDay) :
    Date.yearOfOrdinal (instant / microsPerDay).toNat = year := by
  have hdiv := Int.mul_ediv_add_emod instant microsPerDay
  have hnonneg := Int.emod_nonneg instant (show (microsPerDay : Int) ≠ 0 by decide)
  have hlt := Int.emod_lt_of_pos instant (show (0 : Int) < microsPerDay by decide)
  have hnext := daysBeforeYear_succ hyear
  unfold microsPerDay at *
  exact Date.yearOfOrdinal_eq hyear (by omega) (by omega)

/-- The year by whose summer the clock goes at a point in universal time. -/
def yearAt (instant : Int) : Nat := (Date.ofOrdinal (instant / microsPerDay).toNat).year

theorem yearAt_eq {instant : Int} {year : Nat} (hyear : 1 ≤ year)
    (hfirst : ((daysBeforeYear year : Int) + 1) * microsPerDay ≤ instant)
    (hlast : instant < ((daysBeforeYear year : Int) + daysInYear year + 1) * microsPerDay) :
    yearAt instant = year := by
  have hdiv := Int.le_ediv_of_mul_le (show (0 : Int) < microsPerDay by decide) hfirst
  have hspec := Date.ofOrdinal_spec (n := (instant / microsPerDay).toNat) (by omega)
  exact hspec.2.1.trans (year_of_instant hyear hfirst hlast)

theorem offsetAt_cases (region : Region) (instant : Int) :
    region.offsetAt instant = region.standardMicros + microsPerHour ∨
    region.offsetAt instant = region.standardMicros ∧
      ((region.summerOf (yearAt instant)).1 ≤ instant →
        (region.summerOf (yearAt instant)).2 ≤ instant) := by
  unfold offsetAt yearAt
  dsimp only
  split
  · exact .inl rfl
  · next hout => exact .inr ⟨rfl, fun hfirst => Int.not_lt.mp fun hlast => hout ⟨hfirst, hlast⟩⟩

theorem isRepeatedAt_iff (region : Region) (instant : Int) :
    region.isRepeatedAt instant = true ↔ region.summer ≠ .none ∧
      (region.summerOf (yearAt instant)).2 ≤ instant ∧
      instant < (region.summerOf (yearAt instant)).2 + microsPerHour := by
  unfold isRepeatedAt yearAt
  simp

/-- How far the clock is ahead when summer begins and ends, by the one of two times that is
meant. -/
def changeOffset (region : Region) (isLater : Bool) : Int :=
  if isLater then region.standardMicros else region.standardMicros + microsPerHour

theorem offsetOfWall_cases (region : Region) (isLater : Bool) (wall : DateTime) :
    region.offsetOfWall isLater wall = region.standardMicros ∨
    region.offsetOfWall isLater wall = region.standardMicros + microsPerHour ∧
      region.summer ≠ .none ∧
      (region.summerOf wall.date.year).1 + region.changeOffset isLater ≤ wall.wallMicros ∧
      wall.wallMicros < (region.summerOf wall.date.year).2 + region.changeOffset isLater := by
  have hdef : region.offsetOfWall isLater wall =
      if (region.summerOf wall.date.year).1 + region.changeOffset isLater ≤ wall.wallMicros ∧
        (wall.wallMicros : Int) <
          (region.summerOf wall.date.year).2 + region.changeOffset isLater then
        region.standardMicros + microsPerHour
      else region.standardMicros := rfl
  rw [hdef]
  split
  · next hin =>
      refine .inr ⟨rfl, fun hnone => ?_, hin⟩
      unfold summerOf at hin
      rw [hnone] at hin
      dsimp only at hin
      omega
  · exact .inl rfl

theorem standardMicros_bounds (h : region.IsModerate) :
    -(microsPerDay : Int) ≤ region.standardMicros ∧ region.standardMicros ≤ microsPerDay := by
  obtain ⟨hlow, hhigh, -⟩ := h
  unfold standardMicros microsPerMinute microsPerDay
  omega

/-- Summer, and the hour after it, are within their year in universal time and on the wall. -/
theorem year_of_summer (hmoderate : region.IsModerate) (hsummer : region.summer ≠ .none)
    {year : Nat} (hyear : 1 ≤ year) {instant : Int}
    (hfirst : (region.summerOf year).1 ≤ instant)
    (hlast : instant < (region.summerOf year).2 + microsPerHour) :
    yearAt instant = year ∧
      Date.yearOfOrdinal ((instant + region.standardMicros) / microsPerDay).toNat = year := by
  obtain ⟨hlow, hhigh⟩ := standardMicros_bounds hmoderate
  obtain ⟨hafter, -, hbefore, -⟩ := summerOf_bounds hmoderate hsummer year
  generalize (region.summerOf year).1 = first at *
  generalize (region.summerOf year).2 = last at *
  generalize region.standardMicros = standard at *
  generalize microsPerHour = hour at *
  refine ⟨yearAt_eq hyear ?_ ?_, year_of_instant hyear ?_ ?_⟩
  · unfold microsPerDay at *
    omega
  · unfold microsPerDay at *
    omega
  · unfold microsPerDay at *
    omega
  · unfold microsPerDay at *
    omega

/-- The next day begins only after the hour that is shown twice. -/
theorem repeated_before_nextDay (hmoderate : region.IsModerate) (hsummer : region.summer ≠ .none)
    {year : Nat} {instant : Int} (hfirst : (region.summerOf year).2 ≤ instant)
    (hlast : instant < (region.summerOf year).2 + microsPerHour) :
    (region.summerOf year).2 + region.standardMicros + microsPerHour ≤
      ((instant + region.standardMicros) / microsPerDay + 1) * microsPerDay := by
  obtain ⟨-, -, -, day, hstart, hend⟩ := summerOf_bounds hmoderate hsummer year
  have hday : (instant + region.standardMicros) / microsPerDay = day := by
    have hpos : (0 : Int) < microsPerDay := by decide
    refine Int.le_antisymm ?_ (Int.le_ediv_of_mul_le hpos (by omega))
    exact Int.lt_add_one_iff.mp (Int.ediv_lt_of_lt_mul hpos (by omega))
  rw [hday]
  exact hend

/-- A time that is later on the wall alone is one of two that are shown alike, on the same day. -/
theorem repeated_of_wall (hmoderate : region.IsModerate) (hsummer : region.summer ≠ .none)
    {year : Nat} (hyear : 1 ≤ year) {instant wall : Int}
    (hout : (region.summerOf (yearAt instant)).1 ≤ instant →
      (region.summerOf (yearAt instant)).2 ≤ instant)
    (hlt : instant + region.standardMicros < wall)
    (hle : wall - (region.standardMicros + microsPerHour) ≤ instant)
    (hfirst : (region.summerOf year).1 + (region.standardMicros + microsPerHour) ≤ wall)
    (hlast : wall < (region.summerOf year).2 + (region.standardMicros + microsPerHour)) :
    region.isRepeatedAt instant = true ∧
      wall < ((instant + region.standardMicros) / microsPerDay + 1) * microsPerDay := by
  have hfrom : (region.summerOf year).1 ≤ instant := by omega
  have hto : instant < (region.summerOf year).2 + microsPerHour := by omega
  have hsame := (year_of_summer hmoderate hsummer hyear hfrom hto).1
  rw [hsame] at hout
  have hpast := hout hfrom
  have hnext := repeated_before_nextDay hmoderate hsummer hpast hto
  refine ⟨(isRepeatedAt_iff region instant).mpr ?_, by omega⟩
  rw [hsame]
  exact ⟨hsummer, hpast, hto⟩

/-- After the hour that is shown twice there is no summer before the next year's. -/
theorem summer_after_repeated (hmoderate : region.IsModerate) {instant wall : Int} {year : Nat}
    (hone : 1 ≤ yearAt instant) (hrepeated : region.isRepeatedAt instant = true)
    (hlt : instant + region.standardMicros < wall)
    (hfirst : (region.summerOf year).1 + region.standardMicros ≤ wall)
    (hlast : wall < (region.summerOf year).2 + region.standardMicros) :
    year ≠ Date.yearOfOrdinal ((instant + region.standardMicros) / microsPerDay).toNat ∧
      ((daysBeforeYear year : Int) + 32) * microsPerDay ≤ wall := by
  obtain ⟨hsummer, hpast, hto⟩ := (isRepeatedAt_iff region instant).mp hrepeated
  obtain ⟨-, hfirstLast, -⟩ := summerOf_bounds hmoderate hsummer (yearAt instant)
  have hsame := (year_of_summer hmoderate hsummer hone (by omega) hto).2
  obtain ⟨hafter, -⟩ := summerOf_bounds hmoderate hsummer year
  obtain ⟨hlow, -⟩ := standardMicros_bounds hmoderate
  refine ⟨fun heq => ?_, ?_⟩
  · rw [heq, hsame] at hlast
    omega
  · generalize (region.summerOf year).1 = first at *
    generalize region.standardMicros = standard at *
    clear hsame hlast hfirstLast hpast hto
    unfold microsPerDay at *
    omega

end Region

namespace DateTime

/-- What a recurrence makes of the clock of a region: a clock of the same region that was moved to
another day, or set to a time of the same day or of one at most a month later. -/
inductive MovesOn (clock next : DateTime) : Prop
  | moved (hzone : next.zone = clock.zone.first) (hday : clock.date.ordinal < next.date.ordinal)
  | set (hzone : next.zone = clock.zone) (htime : next.time.micros < microsPerDay)
      (hday : next.date.year = clock.date.year ∨
        next.date.year = clock.date.year + 1 ∧
          next.date.ordinal ≤ daysBeforeYear next.date.year + 31)

theorem MovesOn.zone {clock next : DateTime} {name : String} {isLater : Bool}
    (h : MovesOn clock next) (hclock : clock.zone = .region name isLater) :
    ∃ isLater', next.zone = .region name isLater' := by
  cases h with
  | moved hzone hday => exact ⟨false, by rw [hzone, hclock]; rfl⟩
  | set hzone htime hday => exact ⟨isLater, hzone.trans hclock⟩

theorem offset_of_region {t : DateTime} {name : String} {region : Region} {isLater : Bool}
    (hregion : Region.ofName? name = some region) (hzone : t.zone = .region name isLater) :
    t.offset = region.offsetOfWall isLater t := by
  unfold offset
  rw [hzone]
  dsimp only
  rw [hregion]

theorem MovesOn.wall {clock next : DateTime} (h : MovesOn clock next)
    (hzone : clock.zone ≠ next.zone) :
    ((clock.date.ordinal : Int) + 1) * microsPerDay ≤ next.wallMicros := by
  cases h with
  | moved hfirst hday =>
      have hstart : next.date.ordinal * microsPerDay ≤ next.wallMicros := Nat.le_add_right _ _
      have hmul := Nat.mul_le_mul_right microsPerDay (Nat.succ_le_of_lt hday)
      exact_mod_cast Nat.le_trans hmul hstart
  | set hsame htime hday => exact absurd hsame.symm hzone

theorem MovesOn.set_of_later {clock next : DateTime} {name : String} (h : MovesOn clock next)
    (hzone : next.zone = .region name true) :
    clock.zone = .region name true ∧
      (next.date.year = clock.date.year ∨
        (next.wallMicros : Int) < ((daysBeforeYear next.date.year : Int) + 32) * microsPerDay) := by
  cases h with
  | moved hfirst hday =>
      rw [hzone] at hfirst
      cases hclock : clock.zone with
      | region other isLater =>
          rw [hclock] at hfirst
          cases hfirst
      | _ =>
          rw [hclock] at hfirst
          cases hfirst
  | set hsame htime hday =>
      refine ⟨hsame.symm.trans hzone, ?_⟩
      rcases hday with hyear | ⟨-, hjanuary⟩
      · exact .inl hyear
      · have hmul := Nat.mul_le_mul_right microsPerDay hjanuary
        have hwall : next.wallMicros < (daysBeforeYear next.date.year + 32) * microsPerDay := by
          unfold wallMicros
          rw [Nat.add_mul] at hmul ⊢
          omega
        exact .inr (by exact_mod_cast hwall)

/-- A later time that a region's clock shows is later. -/
theorem instant_lt_of_wall {t clock next later : DateTime} {name : String}
    (hday : (microsPerDay : Int) ≤ t.instant) (hclock : t.inRegion? name = some clock)
    (hlt : clock.wallMicros < next.wallMicros) (hnext : MovesOn clock next)
    (hyear : 1 ≤ next.date.year) (hlater : next.inUniversal? = some later) :
    t.instant < later.instant := by
  unfold inRegion? at hclock
  obtain ⟨region, hregion, hclock⟩ := Option.bind_eq_some_iff.mp hclock
  have hmoderate := Region.isModerate_of_ofName? hregion
  obtain ⟨hwall, hzone, -, hordinal, hclockYear⟩ := ofWallMicros?_eq_some hclock
  obtain ⟨hlaterWall, hlaterZone, -⟩ := ofWallMicros?_eq_some hlater
  obtain ⟨isLater, hnextZone⟩ := hnext.zone hzone
  rw [offset_of_region hregion hnextZone] at hlaterWall
  have hinstant : later.instant = (next.wallMicros : Int) - region.offsetOfWall isLater next := by
    unfold instant universal?
    rw [hlaterZone, ← hlaterWall]
    exact Int.sub_zero _
  have hlt : t.instant + region.offsetAt t.instant < next.wallMicros := by
    rw [← hwall]
    exact_mod_cast hlt
  rw [hinstant]
  refine Int.not_le.mp fun hle => ?_
  have hhour : (0 : Int) < microsPerHour := by decide
  rcases region.offsetAt_cases t.instant with hsummer | ⟨hwinter, hout⟩
  · have hmost : region.offsetOfWall isLater next ≤ region.standardMicros + microsPerHour := by
      rcases region.offsetOfWall_cases isLater next with hoffset | ⟨hoffset, -⟩
      · rw [hoffset]
        exact Int.le_add_of_nonneg_right (Int.le_of_lt hhour)
      · exact Int.le_of_eq hoffset
    rw [hsummer] at hlt
    linarith
  rw [hwinter] at hlt hordinal hclockYear
  rcases region.offsetOfWall_cases isLater next with hoffset | ⟨hoffset, hsome, hfirst, hlast⟩
  · rw [hoffset] at hle
    linarith
  rw [hoffset] at hle
  cases isLater with
  | false =>
      obtain ⟨hrepeated, hsameDay⟩ :=
        Region.repeated_of_wall hmoderate hsome hyear hout hlt hle hfirst hlast
      rw [← hordinal] at hsameDay
      have hother : clock.zone ≠ next.zone := by
        rw [hzone, hnextZone, hrepeated]
        exact fun h => nomatch h
      exact absurd hsameDay (Int.not_lt.mpr (hnext.wall hother))
  | true =>
      obtain ⟨hclockZone, hnextDay⟩ := hnext.set_of_later hnextZone
      have hrepeated : region.isRepeatedAt t.instant = true := by
        rw [hzone] at hclockZone
        exact (Zone.region.inj hclockZone).2
      have hone : 1 ≤ Region.yearAt t.instant := by
        have hdiv := Int.le_ediv_of_mul_le (show (0 : Int) < microsPerDay by decide)
          (show 1 * (microsPerDay : Int) ≤ t.instant by rw [Int.one_mul]; exact hday)
        have hpositive : 1 ≤ (t.instant / microsPerDay).toNat := by
          generalize t.instant / (microsPerDay : Int) = day at hdiv
          omega
        unfold Region.yearAt
        rw [(Date.ofOrdinal_spec hpositive).2.1]
        exact (Date.yearOfOrdinal_spec hpositive).1
      obtain ⟨hother, hlate⟩ :=
        Region.summer_after_repeated hmoderate hone hrepeated hlt hfirst hlast
      rcases hnextDay with hsame | hjanuary
      · exact absurd (hsame.trans hclockYear) hother
      · exact absurd hjanuary (Int.not_lt.mpr hlate)

end DateTime

end TenantReports
