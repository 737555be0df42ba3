import Quarry.Proofs.Time.Calendar
import Quarry.Time.Moment

/-!
# The same instant in UTC

A moment that knows its offset has at most one moment of the same instant in UTC, and that is what
`Moment.toUtc?` finds: from the seconds since the start of the calendar come the day, which has one
date only, and the time of day.
-/

set_option autoImplicit false

namespace Quarry.Time.Moment

variable {m u : Moment}

/-- Whether a moment is the same instant in UTC. -/
structure IsUtcOf (u m : Moment) : Prop where
  valid : u.isValid = true
  utc : u.offset = some 0
  instant : u.micros = m.micros

/-- The clock of a valid moment shows a time of day. -/
theorem clock_bounds (h : m.isValid = true) :
    m.date.isValid = true ∧ m.hour < 24 ∧ m.minute < 60 ∧ m.second < 60 ∧ m.micro < 1000000 := by
  simp only [isValid, Bool.and_eq_true, decide_eq_true_eq] at h
  obtain ⟨⟨⟨⟨⟨hdate, hhour⟩, hminute⟩, hsecond⟩, hmicro⟩, -⟩ := h
  exact ⟨hdate, hhour, hminute, hsecond, hmicro⟩

/-- The second of a day is one of its seconds. -/
theorem secondOfDay_lt (h : m.isValid = true) : m.secondOfDay < 86400 := by
  obtain ⟨-, hhour, hminute, hsecond, -⟩ := clock_bounds h
  unfold secondOfDay
  omega

/-- A moment is found again from the seconds that its calendar and clock show. -/
theorem ofLocalSeconds?_localSeconds (h : m.isValid = true) :
    ofLocalSeconds? m.localSeconds m.micro m.offset = some m := by
  obtain ⟨hdate, hhour, hminute, hsecond, -⟩ := clock_bounds h
  obtain ⟨hfirst, hlast⟩ := Date.ordinal_bounds hdate
  have hclock := secondOfDay_lt h
  have hday : Int.fdiv m.localSeconds 86400 = m.date.ordinal := by
    rw [Int.fdiv_eq_ediv_of_nonneg _ (by decide), localSeconds]
    omega
  have hrest : (Int.fmod m.localSeconds 86400).toNat = m.secondOfDay := by
    rw [Int.fmod_eq_emod_of_nonneg _ (by decide), localSeconds]
    omega
  have hin : ¬((m.date.ordinal : Int) < 1 ∨ (Date.maxOrdinal : Int) < m.date.ordinal) := by omega
  have hparts : m.secondOfDay / 3600 = m.hour ∧ m.secondOfDay % 3600 / 60 = m.minute ∧
      m.secondOfDay % 60 = m.second := by
    unfold secondOfDay
    omega
  unfold ofLocalSeconds?
  simp only [hday, hrest, hin, Bool.or_eq_true, decide_eq_true_eq, if_false, hparts, Int.toNat_natCast,
    Date.ofOrdinal_ordinal hdate]

/-- The same instant is the same second and the same microsecond of it. -/
theorem IsUtcOf.parts (hm : m.isValid = true) (h : u.IsUtcOf m) :
    u.localSeconds = m.seconds ∧ u.micro = m.micro := by
  have hu := (clock_bounds h.valid).2.2.2.2
  have hmicro := (clock_bounds hm).2.2.2.2
  have hinstant := h.instant
  have hoffset : u.offset.getD 0 = 0 := by rw [h.utc, Option.getD_some]
  unfold micros seconds at *
  omega

/-- The moment of the same instant in UTC is the one that is found. -/
theorem IsUtcOf.toUtc? (hm : m.isValid = true) (hoffset : m.offset.isSome = true) (h : u.IsUtcOf m) :
    m.toUtc? = some u := by
  obtain ⟨hseconds, hmicro⟩ := h.parts hm
  have hu := ofLocalSeconds?_localSeconds h.valid
  rw [hseconds, hmicro, h.utc] at hu
  unfold Moment.toUtc?
  split
  · rename_i hnone
    exact absurd hoffset (by simp [hnone])
  · rename_i hzero
    have hsame := ofLocalSeconds?_localSeconds hm
    have hlocal : m.localSeconds = m.seconds := by simp [seconds, hzero]
    rw [hlocal, hzero] at hsame
    exact hsame.symm.trans hu
  · exact hu

end Quarry.Time.Moment
