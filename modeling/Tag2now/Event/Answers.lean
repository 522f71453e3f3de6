import Tag2now.Collections.Fallible
import Tag2now.Event.Service

/-! # What the event answers when the cache fails

A pass judges the players in the order of the baselines and writes their entries in that
order, so which entries it leaves, and what a second read finds, can be said by the place
of the player among the baselines.
-/
namespace Tag2now.Event
open Collections CacheMisses Saves

section
variable {ε : Type} {casefold : String → String} {service : EventService casefold} {server : SaveServer ε}
  {settings : Settings} {players : List PlayerRanks} {judged : List Standing}

theorem judge_baseline {baseline : Baseline} {chars : List RankedChar} {standing : Standing}
    (h : judge casefold baseline chars = .ok standing) : standing.baseline = baseline := by
  unfold judge at h
  cases hnow : chars.foldlM nowWith baseline.chars with
  | error e =>
    rw [hnow] at h
    cases h
  | ok now =>
    rw [hnow] at h
    cases h
    rfl

theorem judgeFrom_baseline {saved : Ordered String (List RankedChar)} {e : String × Baseline} {standing : Standing}
    (h : (judgeFrom casefold saved e : Except (EventError ε) Standing) = .ok standing) : standing.baseline = e.2 := by
  unfold judgeFrom at h
  cases hjudge : judge casefold e.2 ((saved.get? e.1).getD []) with
  | error _ =>
    rw [hjudge] at h
    cases h
  | ok s =>
    rw [hjudge] at h
    cases h
    exact judge_baseline hjudge

theorem standingsFrom_forall₂ (h : (standingsFrom service players : Except (EventError ε) _) = .ok judged) :
    List.Forall₂ (fun e s => (judgeFrom casefold (savedChars casefold players) e : Except (EventError ε) _) = .ok s)
      service.baselines.entries judged := mapM_ok_iff.mp h

theorem standingsFrom_names (h : (standingsFrom service players : Except (EventError ε) _) = .ok judged) :
    judged.map (fun s => casefold s.baseline.npid) = service.baselines.entries.map Prod.fst := by
  have hall := standingsFrom_forall₂ h
  have hnamed := service.named
  clear h
  generalize service.baselines.entries = entries at hall hnamed
  induction hall with
  | nil => rfl
  | cons hjudge _ ih =>
    rw [List.map_cons,List.map_cons,ih fun e he => hnamed e (List.mem_cons_of_mem _ he),
      judgeFrom_baseline hjudge,hnamed _ (List.mem_cons_self ..)]

theorem standingsFrom_of_mem (h : (standingsFrom service players : Except (EventError ε) _) = .ok judged)
    {s : Standing} (hs : s ∈ judged) : ∃ e ∈ service.baselines.entries,
      (judgeFrom casefold (savedChars casefold players) e : Except (EventError ε) _) = .ok s := by
  obtain ⟨hlength,hget⟩ := List.forall₂_iff_get.mp (standingsFrom_forall₂ h)
  obtain ⟨i,hi,rfl⟩ := List.mem_iff_getElem.mp hs
  have hi' : i < service.baselines.entries.length := by omega
  exact ⟨_,List.getElem_mem hi',hget i hi' hi⟩

/-- A player's standing in the pass is the one judged for them alone. -/
theorem judgeFrom_of_mem (h : (standingsFrom service players : Except (EventError ε) _) = .ok judged)
    {name : String} {baseline : Baseline} (hb : (name,baseline) ∈ service.baselines.entries) {s : Standing}
    (hs : s ∈ judged) (hname : casefold s.baseline.npid = name) :
    (judgeFrom casefold (savedChars casefold players) (name,baseline) : Except (EventError ε) _) = .ok s := by
  obtain ⟨e,he,hjudge⟩ := standingsFrom_of_mem h hs
  have hkey : e.1 = name := by rw [service.named e he,← judgeFrom_baseline hjudge,hname]
  have hsame : e = (name,baseline) := List.inj_on_of_nodup_map service.baselines.nodup he hb hkey
  rwa [hsame] at hjudge

theorem standings_eq_ok : standings service server = .ok judged ↔
    ∃ players, server.readRanks = .ok players ∧
      (standingsFrom service players : Except (EventError ε) _) = .ok judged := by
  unfold standings
  cases server.readRanks with
  | error e =>
    constructor
    · intro h
      cases h
    · rintro ⟨_,h,_⟩
      cases h
  | ok players =>
    constructor
    · exact fun h => ⟨players,rfl,h⟩
    · rintro ⟨_,h,hfrom⟩
      cases h
      exact hfrom

theorem uncachedPlayer_ok (hopen : (requireOpen service : Except (EventError ε) _) = .ok ()) {npid : String}
    {baseline : Baseline}
    (hb : service.baselines.get? (casefold npid) = some baseline) (hjudged : standings service server = .ok judged)
    {s : Standing} (hs : s ∈ judged) (hname : casefold s.baseline.npid = casefold npid) :
    uncachedPlayer service server settings npid = .ok (playerAnswer settings casefold judged s) := by
  obtain ⟨players,hranks,hfrom⟩ := standings_eq_ok.mp hjudged
  have hjudge := judgeFrom_of_mem hfrom (Ordered.mem_of_get? hb) hs hname
  unfold uncachedPlayer requirePlayer
  rw [hopen,hb,hranks]
  change ((standingsFrom service players : Except (EventError ε) _) >>= fun judged =>
    judgeFrom casefold (savedChars casefold players) (casefold npid,baseline) >>= fun standing =>
      pure (playerAnswer settings casefold judged standing)) = _
  rw [hfrom]
  change (judgeFrom casefold (savedChars casefold players) (casefold npid,baseline) >>= fun standing =>
    pure (playerAnswer settings casefold judged standing)) = _
  rw [hjudge]
  rfl

theorem uncachedPlayer_error (hopen : (requireOpen service : Except (EventError ε) _) = .ok ()) {npid : String}
    {baseline : Baseline}
    (hb : service.baselines.get? (casefold npid) = some baseline) {e : EventError ε}
    (hjudged : standings service server = .error e) : uncachedPlayer service server settings npid = .error e := by
  unfold standings at hjudged
  unfold uncachedPlayer requirePlayer
  rw [hopen,hb]
  cases hranks : server.readRanks with
  | error e' =>
    rw [hranks] at hjudged
    cases hjudged
    rfl
  | ok players =>
    rw [hranks] at hjudged
    have hfrom : standingsFrom service players = .error e := hjudged
    change ((standingsFrom service players : Except (EventError ε) _) >>= fun judged =>
      judgeFrom casefold (savedChars casefold players) (casefold npid,baseline) >>= fun standing =>
        pure (playerAnswer settings casefold judged standing)) = _
    rw [hfrom]
    rfl

theorem refresh_gives : Gives (FromPass service server settings) (refresh service server settings)
    (standings service server >>= fun judged => .ok (achieversOut settings casefold judged)) := by
  refine (gives_ofExcept _).bind fun judged hjudged => ?_
  have hplayers : ∀ s ∈ judged, FromPass service server settings (playerKey casefold s.baseline.npid)
      (playerAnswer settings casefold judged s) := fun s hs => ⟨judged,hjudged,s,hs,rfl,rfl⟩
  have hboard : FromPass service server settings .board (achieversOut settings casefold judged) :=
    ⟨judged,hjudged,rfl⟩
  exact (gives_cacheSetAll hplayers).bind fun _ _ => (gives_cacheSet hboard).bind fun _ _ => gives_pure _

theorem board_gives (now : ℤ) : Gives (FromPass service server settings) (board service server settings now)
    (uncachedBoard service server settings now) := by
  have hachievers : Gives (FromPass service server settings)
      (orFill Key.board (fun _ => true) (refresh service server settings))
      (standings service server >>= fun judged => .ok (achieversOut settings casefold judged)) := by
    refine gives_orFill ?_ refresh_gives
    rintro achievers ⟨judged,hjudged,rfl⟩
    rw [hjudged]
    rfl
  have hboard := (gives_ofExcept (requireOpen service)).bind fun _ _ =>
    hachievers.bind fun achievers _ => gives_pure (boardOut settings now achievers)
  simp only [bind_assoc] at hboard
  exact hboard

theorem playerKeys_nodup (hjudged : standings service server = .ok judged) :
    (judged.map fun s => playerKey casefold s.baseline.npid).Nodup := by
  obtain ⟨players,_,hfrom⟩ := standings_eq_ok.mp hjudged
  have hnames : (judged.map fun s => casefold s.baseline.npid).Nodup := by
    rw [standingsFrom_names hfrom]
    exact service.baselines.nodup
  have hkeys := hnames.map fun a b (h : Key.player a = Key.player b) => Key.player.inj h
  rwa [List.map_map] at hkeys

/-- What stands in the cache after a pass: a player's entry that was not written is as it was. -/
theorem refresh_run (hjudged : standings service server = .ok judged) (w : World Value) :
    ∃ w', refresh service server settings w = .ok (achieversOut settings casefold judged) w' ∧
      (∀ n, w'.fails n = w.fails (judged.length + 1 + n)) ∧
      ∀ i (h : i < judged.length) name, casefold judged[i].baseline.npid = name →
        w'.holds (.player name) = if w.fails i then w.holds (.player name)
          else some (playerAnswer settings casefold judged judged[i]) := by
  obtain ⟨w₁,hset,hwritten⟩ := @cacheSetAll_written _ _ Value (EventError ε) _
    (fun s : Standing => playerKey casefold s.baseline.npid) (playerAnswer settings casefold judged) judged
    (playerKeys_nodup hjudged) w
  have hrun : refresh service server settings w = (cacheSet .board (achieversOut settings casefold judged) >>=
      fun _ => pure (achieversOut settings casefold judged)) w₁ := by
    unfold refresh
    rw [hjudged]
    exact bind_ok hset
  refine ⟨_,hrun.trans rfl,?_,?_⟩
  · intro n
    have hfails := hwritten.fails (n + 1)
    have harrange : judged.length + 1 + n = judged.length + (n + 1) := by omega
    rw [harrange,← hfails]
    split <;> rfl
  · rintro i hi _ rfl
    have hentry := hwritten.entry i hi
    split
    · exact hentry
    · have hne : playerKey casefold judged[i].baseline.npid ≠ Key.board := nofun
      rw [World.put_holds_of_ne hne]
      exact hentry

/-- With the event open and the player known, the call reads the entry, or makes a pass and reads it again. -/
theorem player_known (hopen : (requireOpen service : Except (EventError ε) _) = .ok ()) {npid : String}
    {baseline : Baseline} (hb : service.baselines.get? (casefold npid) = some baseline) (w : World Value) :
    answer (player service server settings npid) w =
      match if w.fails 0 then none else w.holds (playerKey casefold npid) with
      | some cached => .ok (some cached)
      | none => answer (do
          let _ ← refresh service server settings
          cacheGet (playerKey casefold npid)) w.next := by
  have hplayer : (requirePlayer service npid : Except (EventError ε) _) = .ok baseline := by
    unfold requirePlayer
    rw [hb]
    rfl
  unfold player
  rw [answer_ofExcept_bind,hopen]
  change answer (ofExcept (requirePlayer service npid) >>= _) w = _
  rw [answer_ofExcept_bind,hplayer]
  change answer (cacheGet (playerKey casefold npid) >>= _) w = _
  rw [answer_cacheGet_bind]
  generalize (if w.fails 0 then none else w.holds (playerKey casefold npid)) = found
  cases found <;> rfl

/-- What the second read answers: the entry of the pass, the old one where it was not written, or nothing. -/
theorem reread_answer (hjudged : standings service server = .ok judged) {i : ℕ} (hi : i < judged.length)
    {npid : String} (hname : casefold judged[i].baseline.npid = casefold npid) (w : World Value) :
    answer (do
      let _ ← refresh service server settings
      cacheGet (playerKey casefold npid)) w =
      .ok (if w.fails (judged.length + 1) then none
        else if w.fails i then w.holds (playerKey casefold npid)
        else some (playerAnswer settings casefold judged judged[i])) := by
  obtain ⟨w',hrun,hfails,hentry⟩ := @refresh_run _ _ _ _ settings _ hjudged w
  have hlast : w'.fails 0 = w.fails (judged.length + 1) := hfails 0
  rw [answer_bind_ok hrun,← hlast,← hentry i hi _ hname]
  rfl

theorem player_error (hopen : (requireOpen service : Except (EventError ε) _) = .ok ()) {npid : String}
    {baseline : Baseline} (hb : service.baselines.get? (casefold npid) = some baseline) {e : EventError ε}
    (hjudged : standings service server = .error e) {w : World Value}
    (hw : w.Right (FromPass service server settings)) :
    answer (player service server settings npid) w = .error e := by
  have hmiss : (if w.fails 0 then none else w.holds (playerKey casefold npid)) = none := by
    split
    · rfl
    · cases hheld : w.holds (playerKey casefold npid) with
      | none => rfl
      | some out =>
        obtain ⟨judged,hok,_⟩ := hw hheld
        rw [hjudged] at hok
        cases hok
  have hrefresh : refresh service server settings w.next = .error e w.next := by
    unfold refresh
    rw [hjudged]
    rfl
  rw [player_known hopen hb,hmiss]
  exact answer_bind_error hrefresh

/-- A player who is not of the event, or an event that is closed, is refused before the cache is asked. -/
theorem player_refused {npid : String} (h : ∀ baseline, service.baselines.get? (casefold npid) ≠ some baseline)
    (w : World Value) : answer (player service server settings npid) w =
      some <$> uncachedPlayer service server settings npid := by
  have hplayer : (requirePlayer service npid : Except (EventError ε) _) = .error eventPlayerNotFound := by
    unfold requirePlayer
    rw [Option.eq_none_iff_forall_ne_some.mpr h]
    rfl
  unfold player uncachedPlayer
  rw [answer_ofExcept_bind]
  cases requireOpen service with
  | error e => rfl
  | ok _ =>
    change answer (ofExcept (requirePlayer service npid) >>= _) w = _
    rw [answer_ofExcept_bind,hplayer]
    rfl

/-- The place of a player of the event among the baselines, and the standing the pass has there. -/
theorem exists_place {npid : String} {baseline : Baseline}
    (hb : service.baselines.get? (casefold npid) = some baseline) (hjudged : standings service server = .ok judged) :
    judged.length = service.baselines.entries.length ∧ ∃ i, ∃ h : i < judged.length,
      (service.baselines.entries.map Prod.fst)[i]? = some (casefold npid) ∧
        casefold judged[i].baseline.npid = casefold npid := by
  obtain ⟨players,_,hfrom⟩ := standings_eq_ok.mp hjudged
  have hnames := standingsFrom_names hfrom
  have hlength : judged.length = service.baselines.entries.length := by
    simpa using congrArg List.length hnames
  obtain ⟨i,hi,hentry⟩ := List.mem_iff_getElem.mp (Ordered.mem_of_get? hb)
  have hkey : (service.baselines.entries.map Prod.fst)[i]? = some (casefold npid) := by
    rw [List.getElem?_map,List.getElem?_eq_getElem hi,hentry]
    rfl
  refine ⟨hlength,i,by omega,hkey,?_⟩
  rw [← hnames,List.getElem?_map,List.getElem?_eq_getElem (by omega)] at hkey
  exact Option.some.inj hkey

/-- A held entry of the player is what is computed for them. -/
theorem held_answer {npid : String} {baseline : Baseline}
    (hopen : (requireOpen service : Except (EventError ε) _) = .ok ())
    (hb : service.baselines.get? (casefold npid) = some baseline) {w : World Value}
    (hw : w.Right (FromPass service server settings)) {out : PlayerOut}
    (hheld : w.holds (playerKey casefold npid) = some out) :
    uncachedPlayer service server settings npid = .ok out := by
  obtain ⟨judged,hjudged,s,hs,hname,rfl⟩ := hw hheld
  exact uncachedPlayer_ok hopen hb hjudged hs hname

/-- The player of the event is answered right just where the read or the second read finds an entry. -/
theorem player_known_iff {npid : String} {baseline : Baseline}
    (hopen : (requireOpen service : Except (EventError ε) _) = .ok ())
    (hb : service.baselines.get? (casefold npid) = some baseline) (hjudged : standings service server = .ok judged)
    {i : ℕ} (hi : i < judged.length) (hname : casefold judged[i].baseline.npid = casefold npid) {w : World Value}
    (hw : w.Right (FromPass service server settings)) :
    answer (player service server settings npid) w = some <$> uncachedPlayer service server settings npid ↔
      Read w (casefold npid) i judged.length := by
  have huncached := @uncachedPlayer_ok _ _ _ _ settings _ hopen _ _ hb hjudged _ (List.getElem_mem hi) hname
  rw [player_known hopen hb]
  cases hfound : if w.fails 0 then none else w.holds (playerKey casefold npid) with
  | some out =>
    split at hfound
    · cases hfound
    · rename_i hworks
      rw [held_answer hopen hb hw hfound]
      have hread : Read w (casefold npid) i judged.length :=
        .inl ⟨Bool.eq_false_iff.mpr hworks,Option.isSome_of_eq_some hfound⟩
      exact iff_of_true rfl hread
  | none =>
    have hfirst : ¬ (w.fails 0 = false ∧ (w.holds (.player (casefold npid))).isSome) := by
      rintro ⟨hworks,hheld⟩
      rw [if_neg (by simp [hworks])] at hfound
      simp [hfound] at hheld
    have hold : ∀ out, w.holds (playerKey casefold npid) = some out →
        out = playerAnswer settings casefold judged judged[i] := by
      intro out hheld
      exact Except.ok.inj ((held_answer hopen hb hw hheld).symm.trans huncached)
    have hlast : w.next.fails (judged.length + 1) = w.fails (judged.length + 2) := rfl
    have hwrite : w.next.fails i = w.fails (i + 1) := rfl
    have hholds : w.next.holds (playerKey casefold npid) = w.holds (playerKey casefold npid) := rfl
    unfold Read
    rw [or_iff_right hfirst,reread_answer hjudged hi hname,huncached,hlast,hwrite,hholds]
    change Except.ok _ = Except.ok (some _) ↔ _
    rw [Except.ok.injEq]
    cases w.fails (judged.length + 2) with
    | true => simp
    | false =>
      cases w.fails (i + 1) with
      | false => simp
      | true =>
        cases hheld : w.holds (playerKey casefold npid) with
        | none => simp
        | some out => simp [hold out hheld]

theorem player_answer_iff (npid : String) {w : World Value} (hw : w.Right (FromPass service server settings)) :
    answer (player service server settings npid) w = some <$> uncachedPlayer service server settings npid ↔
      ∀ i, (service.baselines.entries.map Prod.fst)[i]? = some (casefold npid) →
        ∀ judged, standings service server = .ok judged →
          Read w (casefold npid) i service.baselines.entries.length := by
  cases hb : service.baselines.get? (casefold npid) with
  | none =>
    refine iff_of_true (player_refused (fun baseline h => by simp [hb] at h) w) fun i hi => ?_
    obtain ⟨e,he,hkey⟩ := List.mem_map.mp (List.mem_of_getElem? hi)
    have hsome := @Ordered.get?_of_mem _ _ _ service.baselines (casefold npid) e.2 (hkey ▸ he)
    rw [hb] at hsome
    cases hsome
  | some baseline =>
    have hopen : (requireOpen service : Except (EventError ε) _) = .ok () :=
      if_neg (List.ne_nil_of_mem (Ordered.mem_of_get? hb))
    cases hjudged : standings service server with
    | error e =>
      rw [player_error hopen hb hjudged hw,uncachedPlayer_error hopen hb hjudged]
      exact iff_of_true rfl fun _ _ _ h => by cases h
    | ok judged =>
      obtain ⟨hlength,i,hi,hkey,hname⟩ := exists_place hb hjudged
      rw [player_known_iff hopen hb hjudged hi hname hw,hlength]
      constructor
      · intro hread j hj _ _
        have hbound := (List.getElem?_eq_some_iff.mp hkey).1
        have hsame : i = j := (List.getElem?_inj hbound service.baselines.nodup).mp (hkey.trans hj.symm)
        exact hsame ▸ hread
      · exact fun h => h i hkey judged rfl

end

end Tag2now.Event
