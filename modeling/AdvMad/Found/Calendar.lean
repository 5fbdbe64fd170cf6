import AdvMad.Found.Decimal

/-!
# Calendar days and their text

`Day` is a day of the Gregorian calendar, valid by construction. `DateFormatter` is a way of
writing days that reads back what it wrote; `yyyyMMdd` is the one for the pattern `yyyy-MM-dd`
(at least four digits for the year, two for month and day). Written backwards such a text is six
characters of fixed place followed by the digits of the year, least significant first, which is how
`readBackwards` takes it apart. `completedYears` counts the anniversaries of a day that have come.
-/

namespace AdvMad.Found

/-- Leap years of the Gregorian calendar. -/
def isLeap (year : ℕ) : Bool := year % 4 = 0 && (year % 100 != 0 || year % 400 = 0)

/-- The number of days of a month. -/
def daysInMonth (year month : ℕ) : ℕ :=
  if month = 2 then (if isLeap year then 29 else 28)
  else if month = 4 ∨ month = 6 ∨ month = 9 ∨ month = 11 then 30
  else 31

/-- A day of the Gregorian calendar. -/
structure Day where
  year : ℕ
  month : ℕ
  day : ℕ
  month_mem : 1 ≤ month ∧ month ≤ 12
  day_mem : 1 ≤ day ∧ day ≤ daysInMonth year month
deriving DecidableEq, Repr

/-- The day of a year, a month and a day of the month, where there is one. -/
def Day.of? (year month day : ℕ) : Option Day :=
  if h : (1 ≤ month ∧ month ≤ 12) ∧ 1 ≤ day ∧ day ≤ daysInMonth year month then
    some ⟨year, month, day, h.1, h.2⟩
  else none

/-- A day is the day of its own year, month and day. -/
theorem Day.of?_self (d : Day) : Day.of? d.year d.month d.day = some d :=
  dif_pos ⟨d.month_mem, d.day_mem⟩

/-- No month has more than 31 days. -/
theorem daysInMonth_le (year month : ℕ) : daysInMonth year month ≤ 31 := by
  unfold daysInMonth
  split_ifs <;> omega

/-! ### Years of age -/

/-- Within the year, a day comes before another. -/
def Day.BeforeInYear (t d : Day) : Prop := t.month < d.month ∨ (t.month = d.month ∧ t.day < d.day)

instance (t d : Day) : Decidable (t.BeforeInYear d) := inferInstanceAs (Decidable (_ ∨ _))

/-- The completed years from `d` to `t`: those between the two years, less one where `t` comes
before `d` within the year. -/
def completedYears (d t : Day) : ℤ :=
  (t.year : ℤ) - d.year - if t.BeforeInYear d then 1 else 0

/-- They are the years whose anniversary of `d` is not after `t`. -/
theorem le_completedYears_iff (d t : Day) (n : ℤ) :
    n ≤ completedYears d t ↔
      (d.year : ℤ) + n < t.year ∨ ((d.year : ℤ) + n = t.year ∧ ¬ t.BeforeInYear d) := by
  unfold completedYears
  by_cases hbefore : t.BeforeInYear d
  · rw [if_pos hbefore]
    constructor
    · intro h
      exact Or.inl (by omega)
    · rintro (h | ⟨-, hnot⟩)
      · omega
      · exact absurd hbefore hnot
  · rw [if_neg hbefore]
    constructor
    · intro h
      by_cases heq : (d.year : ℤ) + n = t.year
      · exact Or.inr ⟨heq, hbefore⟩
      · exact Or.inl (by omega)
    · rintro (h | ⟨h, -⟩) <;> omega

/-- A way of writing days down. -/
structure DateFormatter where
  /-- The text of a day. -/
  string : Day → String
  /-- The day of a text, where it is the text of one. -/
  date : String → Option Day
  /-- It reads back what it wrote. -/
  date_string : ∀ d, date (string d) = some d

/-! ### The pattern `yyyy-MM-dd` -/

/-- The digits of a year, least significant first, at least four of them. -/
def yearDigits (year : ℕ) : List ℕ :=
  Nat.digits 10 year ++ List.replicate (4 - (Nat.digits 10 year).length) 0

/-- The text of a day, backwards. -/
def writeBackwards (d : Day) : List Char :=
  Nat.digitChar (d.day % 10) :: Nat.digitChar (d.day / 10) :: '-' ::
    Nat.digitChar (d.month % 10) :: Nat.digitChar (d.month / 10) :: '-' ::
      (yearDigits d.year).map Nat.digitChar

/-- The day of a text read backwards. -/
def readBackwards : List Char → Option Day
  | d₀ :: d₁ :: '-' :: m₀ :: m₁ :: '-' :: ys => do
      let d₀ ← digitVal d₀
      let d₁ ← digitVal d₁
      let m₀ ← digitVal m₀
      let m₁ ← digitVal m₁
      let ys ← ys.mapM digitVal
      Day.of? (Nat.ofDigits 10 ys) (10 * m₁ + m₀) (10 * d₁ + d₀)
  | _ => none

/-- They are digits. -/
theorem yearDigits_lt {year n : ℕ} (h : n ∈ yearDigits year) : n < 10 := by
  rcases List.mem_append.mp h with h | h
  · exact Nat.digits_lt_base (by norm_num) h
  · rw [List.eq_of_mem_replicate h]
    norm_num

/-- They denote the year. -/
theorem ofDigits_yearDigits (year : ℕ) : Nat.ofDigits 10 (yearDigits year) = year := by
  rw [yearDigits, Nat.ofDigits_append, Nat.ofDigits_digits, Nat.ofDigits_replicate_zero, mul_zero,
    add_zero]

/-- Reading a list of digits that was written. -/
theorem mapM_digitVal {ds : List ℕ} (h : ∀ d ∈ ds, d < 10) :
    (ds.map Nat.digitChar).mapM digitVal = some ds := by
  induction ds with
  | nil => rfl
  | cons d ds ih =>
      rw [List.map_cons, List.mapM_cons, digitVal_digitChar (h d List.mem_cons_self),
        ih fun x hx => h x (List.mem_cons_of_mem d hx)]
      rfl

/-- Every text written reads back. -/
theorem readBackwards_writeBackwards (d : Day) : readBackwards (writeBackwards d) = some d := by
  have hday : d.day ≤ 31 := d.day_mem.2.trans (daysInMonth_le _ _)
  have hmonth := d.month_mem.2
  simp only [writeBackwards, readBackwards, digitVal_digitChar (show d.day % 10 < 10 by omega),
    digitVal_digitChar (show d.day / 10 < 10 by omega),
    digitVal_digitChar (show d.month % 10 < 10 by omega),
    digitVal_digitChar (show d.month / 10 < 10 by omega),
    mapM_digitVal fun _ => yearDigits_lt, ofDigits_yearDigits, Nat.div_add_mod,
    Option.bind_eq_bind, Option.bind_some]
  exact d.of?_self

/-- Days written `yyyy-MM-dd`. -/
def yyyyMMdd : DateFormatter where
  string d := String.ofList (writeBackwards d).reverse
  date text := readBackwards text.toList.reverse
  date_string d := by
    rw [String.toList_ofList, List.reverse_reverse, readBackwards_writeBackwards]

example : yyyyMMdd.string ⟨1990, 2, 28, by decide, by decide⟩ = "1990-02-28" ∧
    yyyyMMdd.date "1990-02-30" = none := by decide +kernel

end AdvMad.Found
