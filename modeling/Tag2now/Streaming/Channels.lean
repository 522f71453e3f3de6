import Tag2now.Collections.Runs
import Tag2now.Streaming.Service

/-! # Channel ids in pasted text

A channel id is 32 lowercase hex characters, bare or inside any URL. The URL a channel is
shown under is itself text that names the channel.
-/
namespace Tag2now.Streaming

def isHex (c : Char) : Bool := ('0' ≤ c && c ≤ '9') || ('a' ≤ c && c ≤ 'f')

def channelIdLength : ℕ := 32

/-- `str.lower`, a parameter: it leaves ASCII text without capitals as it is. -/
def KeepsLowercase (lower : String → String) : Prop :=
  ∀ s, (∀ c ∈ s.toList, c.toNat < 128 ∧ ¬ ('A' ≤ c ∧ c ≤ 'Z')) → lower s = s

section
variable (lower : String → String)

/-- The channel id in a pasted URL or id. -/
def parseChzzkChannelId (text : String) : Option String :=
  (Runs.search isHex channelIdLength none (lower (strip text)).toList).map String.ofList

/-- A channel id stands in the text first among those there are. -/
def Names (text channelId : String) : Prop :=
  Runs.First isHex channelIdLength none (lower (strip text)).toList channelId.toList

end

section
variable {lower : String → String} {text channelId : String}

theorem parseChzzkChannelId_eq_some : parseChzzkChannelId lower text = some channelId ↔ Names lower text channelId := by
  unfold parseChzzkChannelId Names
  rw [← Runs.search_eq_some,Option.map_eq_some_iff]
  constructor
  · rintro ⟨m,hm,rfl⟩
    rw [String.toList_ofList]
    exact hm
  · intro h
    exact ⟨channelId.toList,h,String.ofList_toList⟩

theorem between {a b c : Char} : a ≤ c ∧ c ≤ b ↔ a.toNat ≤ c.toNat ∧ c.toNat ≤ b.toNat := by
  simp only [Char.le_def,UInt32.le_iff_toNat_le,Char.toNat_val]

theorem hex_toNat {c : Char} (h : isHex c = true) : (48 ≤ c.toNat ∧ c.toNat ≤ 57) ∨ (97 ≤ c.toNat ∧ c.toNat ≤ 102) := by
  have h0 : '0'.toNat = 48 := rfl
  have h9 : '9'.toNat = 57 := rfl
  have ha : 'a'.toNat = 97 := rfl
  have hf : 'f'.toNat = 102 := rfl
  unfold isHex at h
  simp only [Bool.or_eq_true,Bool.and_eq_true,decide_eq_true_eq,between] at h
  omega

theorem hex_lowercase {c : Char} (h : isHex c = true) : c.toNat < 128 ∧ ¬ ('A' ≤ c ∧ c ≤ 'Z') := by
  have hA : 'A'.toNat = 65 := rfl
  have hZ : 'Z'.toNat = 90 := rfl
  have hc := hex_toNat h
  rw [between]
  omega

theorem hex_not_space {c : Char} (h : isHex c = true) : isSpace c = false := by
  have hc := hex_toNat h
  unfold isSpace
  simp only [Bool.or_eq_false_iff,Bool.and_eq_false_iff,decide_eq_false_iff_not,beq_eq_false_iff_ne]
  omega

theorem strip_unspaced {s : String} (h : ∀ c ∈ s.toList, isSpace c = false) : strip s = s := by
  have hkeep {cs : List Char} (hcs : ∀ c ∈ cs, isSpace c = false) : cs.dropWhile isSpace = cs := by
    cases cs with
    | nil => rfl
    | cons c cs => exact List.dropWhile_cons_of_neg (by simp [hcs c List.mem_cons_self])
  unfold strip trim
  rw [hkeep h,hkeep (by simpa using h),List.reverse_reverse,String.ofList_toList]

/-- Text of a prefix that is no channel id, and a channel id. -/
theorem names_behind (hlower : KeepsLowercase lower) {front : String} (hm : Names lower text channelId)
    (hlast : ∀ c ∈ front.toList.getLast?, isHex c = false) (hshort : front.length ≤ channelIdLength)
    (hfront : ∀ c ∈ front.toList, (c.toNat < 128 ∧ ¬ ('A' ≤ c ∧ c ≤ 'Z')) ∧ isSpace c = false) :
    Names lower (front ++ channelId) channelId := by
  obtain ⟨pre,post,-,hrun,-⟩ := hm
  have hchars : ∀ c ∈ (front ++ channelId).toList, (c.toNat < 128 ∧ ¬ ('A' ≤ c ∧ c ≤ 'Z')) ∧ isSpace c = false := by
    intro c hc
    rw [String.toList_append,List.mem_append] at hc
    rcases hc with hc | hc
    · exact hfront c hc
    · exact ⟨hex_lowercase (hrun.holds c hc),hex_not_space (hrun.holds c hc)⟩
  have hstrip : strip (front ++ channelId) = front ++ channelId := strip_unspaced fun c hc => (hchars c hc).2
  have hlow : lower (front ++ channelId) = front ++ channelId := hlower _ fun c hc => (hchars c hc).1
  have hend : Runs.Run isHex channelIdLength none front.toList channelId.toList [] :=
    ⟨hrun.length,hrun.holds,by simpa using hlast,by simp⟩
  unfold Names
  rw [hstrip,hlow,String.toList_append]
  simpa using Runs.first_behind hend hshort

end

/-- A text is read as the first channel id in it; the id itself and the URL it is shown under are read as it
again. -/
theorem parseChzzkChannelId_names {lower : String → String} (hlower : KeepsLowercase lower) (text channelId : String) :
    (parseChzzkChannelId lower text = some channelId ↔ Names lower text channelId) ∧
      (parseChzzkChannelId lower text = some channelId →
        parseChzzkChannelId lower channelId = some channelId ∧
          parseChzzkChannelId lower (chzzkLiveUrl channelId) = some channelId) := by
  refine ⟨parseChzzkChannelId_eq_some,fun h => ?_⟩
  have hnames := parseChzzkChannelId_eq_some.mp h
  constructor
  · have hbare := @names_behind _ _ _ hlower "" hnames (by simp) (by simp) (by simp)
    rw [String.empty_append] at hbare
    exact parseChzzkChannelId_eq_some.mpr hbare
  · exact parseChzzkChannelId_eq_some.mpr (names_behind hlower hnames (by simp [isHex]) (by decide)
      (by simp [isSpace]))

/-- `str.lower` on ASCII. -/
def asciiLower (s : String) : String := String.ofList (s.toList.map Char.toLower)

theorem asciiLower_keeps : KeepsLowercase asciiLower := by
  intro s hs
  have hsame : s.toList.map Char.toLower = s.toList.map id := by
    apply List.map_congr_left
    intro c hc
    exact dif_neg (hs c hc).2
  unfold asciiLower
  rw [hsame,List.map_id,String.ofList_toList]

/-- The 33 characters in front of the channel id are one run, which is too long. -/
theorem pasted_url_names : parseChzzkChannelId asciiLower
      " https://x/000000000000000000000000000000000/0123456789ABCDEF0123456789abcdef?t=1\n" =
        some "0123456789abcdef0123456789abcdef" ∧
    parseChzzkChannelId asciiLower (chzzkLiveUrl "0123456789abcdef0123456789abcdef") =
      some "0123456789abcdef0123456789abcdef" := by
  have hparse : parseChzzkChannelId asciiLower
      " https://x/000000000000000000000000000000000/0123456789ABCDEF0123456789abcdef?t=1\n" =
        some "0123456789abcdef0123456789abcdef" := by decide
  exact ⟨hparse,((parseChzzkChannelId_names asciiLower_keeps _ _).2 hparse).2⟩

end Tag2now.Streaming
