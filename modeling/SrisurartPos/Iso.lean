import SrisurartPos.Numeral
import Mathlib.Data.Int.Basic

/-! # Moments as text

A moment is written as a date of the Gregorian calendar with the time of day (ISO 8601), and read back.
A text may name its offset from UTC; without one it is in local time. What is written is read as it was
(`tryParse_toIso8601String`). -/

namespace Iso

open Numeral

/-! ## The calendar -/

/-- A date of the Gregorian calendar. -/
structure Date where
  year : Int
  month : Int
  day : Int
  deriving DecidableEq, Repr

/-- The days since 1970-01-01. Years are counted from March, so that the leap day is the last. -/
def Date.toDays (d : Date) : Int :=
  let year := if d.month ≤ 2 then d.year - 1 else d.year
  let month := if d.month ≤ 2 then d.month + 9 else d.month - 3
  let ofEra := year % 400
  146097 * (year / 400) + 365 * ofEra + ofEra / 4 - ofEra / 100 + (153 * month + 2) / 5 + (d.day - 1) - 719468

def Date.ofDays (n : Int) : Date :=
  let ofEra := (n + 719468) % 146097
  let century := min (ofEra / 36524) 3
  let ofCentury := ofEra - 36524 * century
  let ofFour := ofCentury % 1461
  let year := min (ofFour / 365) 3
  let ofYear := ofFour - 365 * year
  let month := (5 * ofYear + 2) / 153
  let y := 400 * ((n + 719468) / 146097) + 100 * century + 4 * (ofCentury / 1461) + year
  ⟨if month < 10 then y else y + 1, if month < 10 then month + 3 else month - 9,
    ofYear - (153 * month + 2) / 5 + 1⟩

theorem month_bounds {ofYear : Int} (h0 : 0 ≤ ofYear) (h1 : ofYear ≤ 365) :
    0 ≤ (5 * ofYear + 2) / 153 ∧ (5 * ofYear + 2) / 153 ≤ 11 ∧
      0 ≤ ofYear - (153 * ((5 * ofYear + 2) / 153) + 2) / 5 ∧
      ofYear - (153 * ((5 * ofYear + 2) / 153) + 2) / 5 ≤ 30 := by
  omega

/-- A day is the number of its calendar date. -/
theorem toDays_ofDays (n : Int) : (Date.ofDays n).toDays = n := by
  unfold Date.ofDays Date.toDays
  extract_lets ofEra century ofCentury ofFour year ofYear month y y' month' ofEra'
  have hera : 0 ≤ ofEra ∧ ofEra < 146097 := by omega
  have hcentury : 0 ≤ century ∧ century ≤ 3 := by omega
  have hofCentury : 0 ≤ ofCentury ∧ ofCentury ≤ 36524 := by omega
  have hyear : 0 ≤ year ∧ year ≤ 3 := by omega
  have hofYear : 0 ≤ ofYear ∧ ofYear ≤ 365 := by omega
  have hmonth := month_bounds hofYear.1 hofYear.2
  have hy' : y' = y ∧ month' = month := by
    simp only [y', month']
    split <;> omega
  obtain ⟨hy', hm'⟩ := hy'
  have hyear' : y' / 400 = (n + 719468) / 146097 ∧ ofEra' = 100 * century + 4 * (ofCentury / 1461) + year := by
    simp only [ofEra', hy', y]
    omega
  have hquad : 0 ≤ ofCentury / 1461 ∧ ofCentury / 1461 ≤ 24 := by omega
  have hleap : (100 * century + 4 * (ofCentury / 1461) + year) / 4 = 25 * century + ofCentury / 1461 := by omega
  have hnone : (100 * century + 4 * (ofCentury / 1461) + year) / 100 = century := by omega
  rw [hm', hyear'.1, hyear'.2, hleap, hnone]
  dsimp only
  omega

/-- `maxMillisecondsSinceEpoch` in seconds: a hundred million days. -/
def maxSeconds : Nat := 8640000000000

theorem ofDays_bounds {n : Int} (hn : n.natAbs ≤ 100000000) :
    (Date.ofDays n).year.natAbs < 1000000 ∧ 1 ≤ (Date.ofDays n).month ∧ (Date.ofDays n).month ≤ 12 ∧
      1 ≤ (Date.ofDays n).day ∧ (Date.ofDays n).day ≤ 31 := by
  unfold Date.ofDays
  extract_lets ofEra century ofCentury ofFour year ofYear month y
  have hofYear : 0 ≤ ofYear ∧ ofYear ≤ 365 := by omega
  have hmonth := month_bounds hofYear.1 hofYear.2
  have hy : -300000 ≤ y ∧ y ≤ 300000 := by omega
  dsimp only
  split <;> omega

/-! ## Moments -/

/-- A moment, to the second. -/
structure Instant where
  seconds : Int
  inRange : seconds.natAbs ≤ maxSeconds
  deriving DecidableEq

/-- A moment, to the microsecond. -/
structure Moment where
  micros : Int
  inRange : micros.natAbs ≤ maxSeconds * 1000000
  deriving DecidableEq

def Instant.toMoment (i : Instant) : Moment where
  micros := i.seconds * 1000000
  inRange := by
    have := i.inRange
    rw [Int.natAbs_mul]
    exact Nat.mul_le_mul_right _ i.inRange

/-- The seconds, rounded toward the epoch. -/
def Moment.toInstant (m : Moment) : Instant where
  seconds := m.micros.tdiv 1000000
  inRange := by
    rw [Int.natAbs_tdiv]
    exact Nat.div_le_of_le_mul (by simpa [Nat.mul_comm] using m.inRange)

@[simp] theorem Instant.toInstant_toMoment (i : Instant) : i.toMoment.toInstant = i := by
  obtain ⟨seconds, h⟩ := i
  simp [Instant.toMoment, Moment.toInstant]

def Moment.ofMicros? (micros : Int) : Option Moment :=
  if h : micros.natAbs ≤ maxSeconds * 1000000 then some ⟨micros, h⟩ else none

/-! ## Writing -/

def yearText (year : Int) : List Char :=
  if -9999 ≤ year ∧ year ≤ 9999 then (if year < 0 then ['-'] else []) ++ padStart 4 year.natAbs
  else (if year < 0 then '-' else '+') :: padStart 6 year.natAbs

/-- `toUtc().toIso8601String()` of a moment without a fraction. -/
def toIso8601String (i : Instant) : String :=
  let d := Date.ofDays (i.seconds / 86400)
  let s := (i.seconds % 86400).toNat
  String.ofList (yearText d.year ++ '-' :: (padStart 2 d.month.toNat ++ '-' :: (padStart 2 d.day.toNat ++
    'T' :: (padStart 2 (s / 3600) ++ ':' :: (padStart 2 (s / 60 % 60) ++ ':' :: (padStart 2 (s % 60) ++
      ['.', '0', '0', '0', 'Z']))))))

/-! ## Reading -/

/-- A number of just `n` digits. -/
def digits (n : Nat) (cs : List Char) : Option (Nat × List Char) :=
  if n ≤ cs.length ∧ (cs.take n).all Char.isDigit then some (value (cs.take n), cs.drop n) else none

/-- Skips a `c`, if it comes next. -/
def skip (c : Char) : List Char → List Char
  | d :: cs => if d = c then cs else d :: cs
  | []      => []

/-- Two digits, if they come next. -/
def two (c : Char) (cs : List Char) : Nat × List Char :=
  (digits 2 (skip c cs)).getD (0, cs)

def sign : List Char → Int × List Char
  | '+' :: cs => (1, cs)
  | '-' :: cs => (-1, cs)
  | cs        => (1, cs)

/-- The microseconds of a fraction: digits beyond six are dropped. -/
def fraction : List Char → Option (Nat × List Char)
  | c :: cs =>
      if c = '.' ∨ c = ',' then
        let ds := cs.takeWhile Char.isDigit
        if ds = [] then none
        else some (value (ds.take 6) * 10 ^ (6 - ds.length), cs.dropWhile Char.isDigit)
      else some (0, c :: cs)
  | [] => some (0, [])

/-- The minutes east of UTC, up to the end of the text. -/
def offset (localMinutes : Int) (cs : List Char) : Option Int :=
  match skip ' ' cs with
  | []  => if cs = [] then some localMinutes else none
  | c :: rest =>
      if c = 'z' ∨ c = 'Z' then if rest = [] then some 0 else none
      else if c = '+' ∨ c = '-' then
        match digits 2 rest with
        | some (hours, rest) =>
            match two ':' rest with
            | (minutes, []) => some ((if c = '-' then -1 else 1) * (60 * hours + minutes))
            | _             => none
        | none => none
      else none

/-- The microseconds of the day, less the offset. -/
def clock (localMinutes : Int) : List Char → Option Int
  | [] => some (-localMinutes * 60000000)
  | c :: cs =>
      if c = 'T' ∨ c = ' ' then do
        let (hour, cs) ← digits 2 cs
        let (minute, rest) := two ':' cs
        -- Seconds come after minutes only, and a fraction after seconds.
        let (second, rest') := if rest = cs then (0, rest) else two ':' rest
        let (micros, rest'') ← if rest' = rest then some (0, rest') else fraction rest'
        let minutes ← offset localMinutes rest''
        some (((60 * hour + minute - minutes) * 60 + second) * 1000000 + micros)
      else none

/-- A year of `n` digits, and the rest. A month beyond twelve counts into the next years. -/
def moment (localMinutes sign : Int) (cs : List Char) (n : Nat) : Option Int := do
  let (year, cs) ← digits n cs
  let (month, cs) ← digits 2 (skip '-' cs)
  let (day, cs) ← digits 2 (skip '-' cs)
  let micros ← clock localMinutes cs
  let date : Date := ⟨sign * year + ((month : Int) - 1) / 12, ((month : Int) - 1) % 12 + 1, 1⟩
  some ((date.toDays + day - 1) * 86400000000 + micros)

/-- `DateTime.tryParse`: a year has as many digits as can be, up to six. -/
def tryParse (localMinutes : Int) (text : String) : Option Moment :=
  let (s, cs) := sign text.toList
  ([6, 5, 4].findSome? (moment localMinutes s cs)).bind Moment.ofMicros?

/-! ## What is written is read -/

variable {cs rest : List Char} {k n : Nat} {c : Char}

theorem digits_padStart (hk : 0 < k) (hn : n < 10 ^ k) : digits k (padStart k n ++ rest) = some (n, rest) := by
  have hlen := length_padStart hk hn
  have htake : (padStart k n ++ rest).take k = padStart k n := List.take_left' hlen
  have hdrop : (padStart k n ++ rest).drop k = rest := List.drop_left' hlen
  have hle : k ≤ (padStart k n ++ rest).length := by
    rw [List.length_append, hlen]
    exact Nat.le_add_right _ _
  rw [digits, htake, hdrop, value_padStart, if_pos ⟨hle, List.all_eq_true.mpr isDigit_padStart⟩]

/-- A number ends where a letter is no digit. -/
theorem digits_eq_none (hc : c.isDigit = false) (hlen : cs.length < k) : digits k (cs ++ c :: rest) = none := by
  refine if_neg fun h => ?_
  have hmem : c ∈ (cs ++ c :: rest).take k := by
    rw [List.take_append, show k - cs.length = (k - cs.length - 1) + 1 by omega, List.take_succ_cons]
    exact List.mem_append_right _ List.mem_cons_self
  have := List.all_eq_true.mp h.2 c hmem
  rw [hc] at this
  cases this

theorem skip_self : skip c (c :: cs) = cs := if_pos rfl

theorem two_padStart (hn : n < 100) : two c (c :: (padStart 2 n ++ rest)) = (n, rest) := by
  rw [two, skip_self, digits_padStart (by decide) hn]
  rfl

/-- A year that begins with a digit has no sign. -/
theorem sign_of_digit (h : c.isDigit = true) : sign (c :: cs) = (1, c :: cs) := by
  have hplus : c ≠ '+' := by
    rintro rfl
    cases h
  have hminus : c ≠ '-' := by
    rintro rfl
    cases h
  unfold sign
  split
  next heq => exact absurd (List.cons.inj heq).1 hplus
  next heq => exact absurd (List.cons.inj heq).1 hminus
  · rfl

/-- A year is a sign and four or six digits. -/
theorem sign_yearText {year : Int} (h : year.natAbs < 1000000) :
    ∃ s k, (k = 4 ∨ k = 6) ∧ year.natAbs < 10 ^ k ∧ s * year.natAbs = year ∧
      sign (yearText year ++ rest) = (s, padStart k year.natAbs ++ rest) := by
  unfold yearText
  split
  · have hlt : year.natAbs < 10 ^ 4 := by omega
    by_cases hneg : year < 0
    · refine ⟨-1, 4, Or.inl rfl, hlt, by omega, ?_⟩
      rw [if_pos hneg]
      rfl
    · refine ⟨1, 4, Or.inl rfl, hlt, by omega, ?_⟩
      rw [if_neg hneg, List.nil_append]
      have hlen : (padStart 4 year.natAbs).length = 4 := length_padStart (by decide) hlt
      have hdigit : ∀ c ∈ padStart 4 year.natAbs, c.isDigit = true := isDigit_padStart
      revert hlen hdigit
      cases padStart 4 year.natAbs with
      | nil => exact fun hlen => nomatch hlen
      | cons c cs => exact fun _ hdigit => sign_of_digit (hdigit c List.mem_cons_self)
  · by_cases hneg : year < 0
    · refine ⟨-1, 6, Or.inr rfl, h, by omega, ?_⟩
      rw [if_pos hneg]
      rfl
    · refine ⟨1, 6, Or.inr rfl, h, by omega, ?_⟩
      rw [if_neg hneg]
      rfl

variable {localMinutes : Int}

/-- The time of day is read back from its text. -/
theorem clock_text {hour minute second : Nat} (hh : hour < 100) (hm : minute < 100) (hs : second < 100) :
    clock localMinutes ('T' :: (padStart 2 hour ++ ':' :: (padStart 2 minute ++ ':' :: (padStart 2 second ++
      ['.', '0', '0', '0', 'Z'])))) = some (((60 * hour + minute) * 60 + second) * 1000000) := by
  have hlen : ∀ {x : Nat} (tail : List Char), x < 100 → (padStart 2 x ++ tail).length = 2 + tail.length := by
    intro x tail hx
    rw [List.length_append, length_padStart (by decide) hx]
  have hne : ∀ {x : Nat} (tail : List Char), x < 100 → tail ≠ ':' :: (padStart 2 x ++ tail) := by
    intro x tail hx heq
    have := congrArg List.length heq
    rw [List.length_cons, hlen tail hx] at this
    omega
  have hfraction : fraction ['.', '0', '0', '0', 'Z'] = some (0, ['Z']) := by decide
  rw [clock, if_pos (Or.inl rfl), digits_padStart (by decide) hh]
  dsimp only [Option.bind_eq_bind, Option.bind_some]
  rw [two_padStart hm]
  dsimp only
  rw [if_neg (hne _ hm), two_padStart hs]
  dsimp only
  rw [if_neg (hne _ hs), hfraction]
  simp [offset, skip]

/-- So is the whole moment, with a year of any width. -/
theorem moment_text {year : Nat} {month day hour minute second : Nat} {s : Int} (hk : 0 < k) (hy : year < 10 ^ k)
    (hmonth : 1 ≤ month ∧ month ≤ 12) (hday : day < 100) (hh : hour < 100) (hm : minute < 100) (hs : second < 100) :
    moment localMinutes s (padStart k year ++ '-' :: (padStart 2 month ++ '-' :: (padStart 2 day ++
      'T' :: (padStart 2 hour ++ ':' :: (padStart 2 minute ++ ':' :: (padStart 2 second ++
        ['.', '0', '0', '0', 'Z'])))))) k =
      some (((Date.mk (s * year) month 1).toDays + day - 1) * 86400000000 +
        ((60 * hour + minute) * 60 + second) * 1000000) := by
  have hzero : ((month : Int) - 1) / 12 = 0 := by omega
  have hmod : ((month : Int) - 1) % 12 + 1 = month := by omega
  rw [moment, digits_padStart hk hy]
  dsimp only [Option.bind_eq_bind, Option.bind_some]
  rw [skip_self, digits_padStart (by decide) (by omega)]
  dsimp only [Option.bind_some]
  rw [skip_self, digits_padStart (by decide) hday]
  dsimp only [Option.bind_some]
  rw [clock_text hh hm hs, hzero, hmod, Int.add_zero]
  rfl

/-- Fewer digits than a year has are not tried, and more are not there. -/
theorem findSome_moment {s : Int} {year : Nat} (hk : k = 4 ∨ k = 6) (hy : year < 10 ^ k) {m : Int}
    (h : moment localMinutes s (padStart k year ++ '-' :: rest) k = some m) :
    [6, 5, 4].findSome? (moment localMinutes s (padStart k year ++ '-' :: rest)) = some m := by
  have hnone : ∀ n, k < n → moment localMinutes s (padStart k year ++ '-' :: rest) n = none := by
    intro n hn
    have hlen := length_padStart (by omega) hy
    rw [moment, digits_eq_none (by rfl) (by omega)]
    rfl
  rcases hk with rfl | rfl
  · simp [List.findSome?, hnone 6 (by decide), hnone 5 (by decide), h]
  · simp [List.findSome?, h]

theorem toDays_of_day (d : Date) : (Date.mk d.year d.month 1).toDays + d.day - 1 = d.toDays := by
  unfold Date.toDays
  dsimp only
  omega

/-- **Round trip**: an instant is parsed from its ISO text, whatever the zone of the machine. -/
theorem tryParse_toIso8601String (localMinutes : Int) (i : Instant) :
    tryParse localMinutes (toIso8601String i) = some i.toMoment := by
  have hbound := i.inRange
  have hdays : (i.seconds / 86400).natAbs ≤ 100000000 := by
    rw [maxSeconds] at hbound
    omega
  have hfields := ofDays_bounds hdays
  unfold tryParse toIso8601String
  extract_lets d s
  obtain ⟨hyear, hm1, hm12, hd1, hd31⟩ :
    d.year.natAbs < 1000000 ∧ 1 ≤ d.month ∧ d.month ≤ 12 ∧ 1 ≤ d.day ∧ d.day ≤ 31 := hfields
  have hround : d.toDays = i.seconds / 86400 := toDays_ofDays _
  rw [String.toList_ofList]
  obtain ⟨sgn, k, hk, hlt, hsgn, hsign⟩ := sign_yearText hyear
  rw [hsign]
  have hmonth : (d.month.toNat : Int) = d.month := Int.toNat_of_nonneg (by omega)
  have hday : (d.day.toNat : Int) = d.day := Int.toNat_of_nonneg (by omega)
  have hs : (s : Int) = i.seconds % 86400 := Int.toNat_of_nonneg (Int.emod_nonneg _ (by decide))
  have htext : moment localMinutes sgn _ k = _ := moment_text (by omega) hlt
    (by omega : 1 ≤ d.month.toNat ∧ d.month.toNat ≤ 12) (by omega : d.day.toNat < 100)
    (by omega : s / 3600 < 100) (by omega : s / 60 % 60 < 100) (by omega : s % 60 < 100)
  dsimp only
  rw [findSome_moment hk hlt htext, Option.bind_some, hsgn, hmonth, hday, toDays_of_day, hround]
  have hmicros : (i.seconds / 86400) * 86400000000 + ((60 * (s / 3600 : Nat) + (s / 60 % 60 : Nat)) * 60 +
      (s % 60 : Nat) : Int) * 1000000 = i.toMoment.micros := by
    show _ = i.seconds * 1000000
    omega
  rw [hmicros, Moment.ofMicros?, dif_pos i.toMoment.inRange]

end Iso
