import Mathlib.Data.Int.Basic
import Mathlib.Data.List.Basic

/-! # What every module shares -/
namespace Tag2now

/-! ## Instants and durations

An instant is an integer, the microseconds since the epoch in UTC, which is the
resolution of both `datetime` and `timestamptz`; a duration is an integer too.
-/

def second : ℤ := 1000000
def minute : ℤ := 60 * second
def hour : ℤ := 60 * minute
def day : ℤ := 24 * hour

/-- Seoul is nine hours ahead of UTC and keeps no daylight saving time. -/
def seoulOffset : ℤ := 9 * hour

/-- A naive time of day, as a request gives it. -/
structure TimeOfDay where
  micros : ℤ
  nonneg : 0 ≤ micros
  lt_day : micros < day
  deriving DecidableEq

/-- Midnight of the Seoul day an instant falls on. -/
def seoulMidnight (t : ℤ) : ℤ := t - (t + seoulOffset) % day

/-- What a clock on the wall in Seoul shows at an instant. -/
def seoulTime (t : ℤ) : ℤ := (t + seoulOffset) % day

/-! ## Text as Python handles it -/

/-- The characters `str.isspace` holds of. -/
def isSpace (c : Char) : Bool :=
  let n := c.toNat
  (9 ≤ n && n ≤ 13) || (28 ≤ n && n ≤ 32) || n == 0x85 || n == 0xa0 || n == 0x1680 ||
    (0x2000 ≤ n && n ≤ 0x200a) || n == 0x2028 || n == 0x2029 || n == 0x202f || n == 0x205f || n == 0x3000

/-- Unicode's whitespace, without the separators of ASCII that `str.strip` takes along. -/
def isWhitespace (c : Char) : Bool := isSpace c && !(28 ≤ c.toNat && c.toNat ≤ 31)

def trim (space : Char → Bool) (s : String) : String :=
  String.ofList ((s.toList.dropWhile space).reverse.dropWhile space).reverse

/-- `str.strip` with no argument. -/
def strip (s : String) : String := trim isSpace s

theorem strip_length_le (s : String) : (strip s).length ≤ s.length := by
  have hback := (List.dropWhile_suffix isSpace (l := (s.toList.dropWhile isSpace).reverse)).length_le
  have hfront := (List.dropWhile_suffix isSpace (l := s.toList)).length_le
  simp only [strip,trim,String.length_ofList,List.length_reverse,String.length_toList] at hback hfront ⊢
  omega

theorem toString_nat_injective : Function.Injective (toString : ℕ → String) := by
  intro m n h
  have hdigits : Nat.toDigits 10 m = Nat.toDigits 10 n := by
    rw [← Nat.toList_repr,← Nat.toList_repr]
    exact congrArg String.toList h
  rw [← Nat.ofDigitChars_toDigits (n := m) (b := 10) (by decide) (by decide),hdigits,
    Nat.ofDigitChars_toDigits (by decide) (by decide)]

theorem minus_notMem_nat (n : ℕ) : '-' ∉ (toString n).toList := by
  intro h
  have hdigit := Nat.isDigit_of_mem_toDigits (b := 10) (by decide) (by decide) (Nat.toList_repr ▸ h)
  cases hdigit

theorem toString_int_injective : Function.Injective (toString : ℤ → String) := by
  intro m n h
  rw [Int.toString_eq_repr,Int.toString_eq_repr,Int.repr_eq_if,Int.repr_eq_if] at h
  have hsign {j k : ℕ} : j.repr ≠ "-" ++ k.repr := fun heq => minus_notMem_nat j (by
    rw [Nat.toString_eq_repr,heq]
    simp)
  split at h
  · split at h
    · have hnat := toString_nat_injective h
      omega
    · exact absurd h hsign
  · split at h
    · exact absurd h.symm hsign
    · have hnat := toString_nat_injective ((String.append_right_inj _).mp h)
      omega

/-! ## Settings the rankings read -/

structure Settings where
  rankingExcludedNpids : List String
  eventEndAt : Option ℤ

/-- Names are unique regardless of case, so the list is too. -/
def Settings.isRankingExcluded (settings : Settings) (casefold : String → String) (npid : String) : Bool :=
  casefold npid ∈ settings.rankingExcludedNpids.map casefold

/-! ## Tekken Tag Tournament 2 game data -/

/-- Character names by id. -/
def ttt2Characters : List String :=
  ["Paul","Law","Lei","King","Yoshimitsu","Nina","Hwoarang","Xiayu","Christie","Jin","Julia","Kuma","Bryan",
   "Heihachi","Kazuya","Lee","Steve","Marduk","Mokujin","Jack","Roger Jr.","Anna","Wang","Ganryu","Asuka",
   "Bruce","Baek","Devil Jin","Raven","Feng","Armor King","Lili","Dragunov","Eddy","Bob","Zafina","Miguel",
   "Leo","Lars","Alisa","Jinpachi","True Ogre","Jun","Panda","Unknown","Kunimitsu","Angel","Forest Law",
   "Miharu","Combot","Slim Bob","Michelle","P-Jack","Alex","Ancient Ogre","Violet","Dr.","Sebastian","Tiger"]

abbrev characterCount : ℕ := 59

theorem ttt2Characters_length : ttt2Characters.length = characterCount := rfl

structure TekkenRank where
  name : String
  tier : String
  deriving DecidableEq

def ranksOf (tier : String) (names : List String) : List TekkenRank := names.map fun name => ⟨name,tier⟩

/-- Ranks by code. -/
def tekkenRanks : List TekkenRank :=
  ranksOf "숫자단" ["Beginner","9th kyu","8th kyu","7th kyu","6th kyu","5th kyu","4th kyu","3rd kyu","2nd kyu",
    "1st kyu","1st dan","2nd dan","3rd dan"] ++
  ranksOf "액자단" ["Disciple","Mentor","Master","Grand Master"] ++
  ranksOf "녹단" ["Brawler","Marauder","Fighter","Berserker"] ++
  ranksOf "노랑단" ["Warrior","Avenger","Duelist","Pugilist"] ++
  ranksOf "주황단" ["Vanquisher","Destroyer","Conqueror","Savior"] ++
  ranksOf "빨강단" ["Genbu","Byakko","Seiryu","Suzaku"] ++
  ranksOf "파랑단" ["Fujin","Raijin","Yaksa","Majin","Toshin"] ++
  ranksOf "보라단" ["Emperor","Tekken Lord","Tekken Emperor"] ++
  ranksOf "God" ["Tekken God","True Tekken God"]

def maxRank : ℕ := 42

theorem tekkenRanks_length : tekkenRanks.length = maxRank + 1 := rfl

end Tag2now
