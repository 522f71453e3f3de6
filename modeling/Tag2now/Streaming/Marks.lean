import Tag2now.Collections.Fallible
import Tag2now.Streaming.Registry

/-! # LIVE marks

Every account's registrations, every admin's removals and every visitor's call are interleaved
step by step, as are the entries of the cache that run out. The committed tables are kept in a log.
-/
namespace Tag2now.Streaming
open Collections Guarded ReadCommitted

/-- What the rows are cached as. -/
def registeredOf (lower : String → String) (rows : List StreamChannel) : Ordered String Channel :=
  .ofList (rows.map fun c => (lower c.username,⟨c.platform,c.channelId,c.channelName⟩))

/-- The marks of the asked-for players, on what the platform says of each channel. -/
def marksOf (lower : String → String) (registered : Ordered String Channel) (npids : List String)
    (found : String → Option OnAir) : Except (StreamingError Empty) (List (String × Stream)) :=
  streamsOf ((wanted lower registered npids).map fun e => (e,found e.2.channelId))

/-! ## The machine -/

/-- Where a visitor's call is. -/
inductive LiveCall
  | missed
  | read (registered : Ordered String Channel)
  | checking (registered : Ordered String Channel)

structure State where
  channels : ChannelTable
  /-- Every committed table, the present one included. -/
  past : List ChannelTable
  cached : Option (Ordered String Channel)
  calls : ℕ → Option LiveCall
  answers : List (Except (StreamingError Empty) (List (String × Stream)))

def State.commit (s : State) (t : ChannelTable) : State := { s with channels := t, past := t :: s.past }

def State.goTo (s : State) (call : ℕ) (c : Option LiveCall) : State :=
  { s with calls := Function.update s.calls call c }

inductive Action
  | register (username text : String)
    (found : String → Except (PlatformFault ReadFault) (Option PlatformChannel)) (now : ℤ)
  /-- The owner's or an admin's; which one decides what is answered, not what is deleted. -/
  | remove (username : String)
  /-- The entry dropped by a writer, or run out. -/
  | drop
  | look (call : ℕ)
  | list (call : ℕ) (rows : List StreamChannel)
  | keep (call : ℕ)
  | answer (call : ℕ) (npids : List String) (found : String → Option OnAir)
  /-- Whatever a call raises, its visitor is shown nobody. -/
  | raise (call : ℕ)

section
variable (lower sqlLower : String → String)

def step (s : State) : Action → Option State
  | .register username text found now =>
    match registerChannel lower username text found now s.channels with
    | .error _ => some s
    | .ok (_,t) => some (s.commit t)
  | .remove username => some (s.commit (s.channels.delete lower sqlLower username))
  | .drop => some { s with cached := none }
  | .look call =>
    match s.calls call with
    | some _ => none
    | none => some (s.goTo call (some (s.cached.elim .missed .checking)))
  | .list call rows =>
    match s.calls call with
    | some .missed =>
      if s.channels.Listed rows then some (s.goTo call (some (.read (registeredOf lower rows)))) else none
    | _ => none
  | .keep call =>
    match s.calls call with
    | some (.read registered) => some { s.goTo call (some (.checking registered)) with cached := some registered }
    | _ => none
  | .answer call npids found =>
    match s.calls call with
    | some (.checking registered) =>
      some { s.goTo call none with answers := marksOf lower registered npids found :: s.answers }
    | _ => none
  | .raise call =>
    match s.calls call with
    | some _ => some { s.goTo call none with answers := .ok [] :: s.answers }
    | none => none

def site : Machine State Action := ⟨⟨.empty,[.empty],none,fun _ => none,[]⟩,step lower sqlLower⟩

/-- The registered channels as they all were at one moment. -/
def Whole (past : List ChannelTable) (registered : Ordered String Channel) : Prop :=
  ∃ t ∈ past, ∃ rows, t.Listed rows ∧ registered = registeredOf lower rows

/-- No two of the marks are of one channel, and there was a moment when each player had theirs registered. -/
def Honest (past : List ChannelTable) (answer : Except (StreamingError Empty) (List (String × Stream))) : Prop :=
  ∃ marks, answer = .ok marks ∧ (∀ x ∈ marks, ∀ y ∈ marks, x.2.url = y.2.url → x = y) ∧
    ∃ t ∈ past, ∀ x ∈ marks, ∃ r ∈ t.rows,
      lower r.username = x.1 ∧ r.channelName = x.2.channelName ∧ chzzkLiveUrl r.channelId = x.2.url

def LiveCall.registered? : LiveCall → Option (Ordered String Channel)
  | .missed => none
  | .read registered => some registered
  | .checking registered => some registered

structure Lawful (s : State) : Prop where
  present : s.channels ∈ s.past
  platform : ∀ t ∈ s.past, ∀ r ∈ t.rows, r.platform = chzzk
  cached : ∀ registered ∈ s.cached, Whole lower s.past registered
  calls : ∀ call c, s.calls call = some c → ∀ registered ∈ c.registered?, Whole lower s.past registered
  answers : ∀ a ∈ s.answers, Honest lower s.past a

end

/-! ## One answer -/
section
variable {lower sqlLower : String → String} {t : ChannelTable} {rows : List StreamChannel}
  {registered : Ordered String Channel} {npids : List String} {found : String → Option OnAir}

theorem mem_registeredOf {e : String × Channel} (h : e ∈ (registeredOf lower rows).entries) :
    ∃ r ∈ rows, e = (lower r.username,⟨r.platform,r.channelId,r.channelName⟩) := by
  obtain ⟨r,hr,rfl⟩ := List.mem_map.mp (Ordered.mem_ofList h)
  exact ⟨r,hr,rfl⟩

theorem chzzkLiveUrl_inj {a b : String} (h : chzzkLiveUrl a = chzzkLiveUrl b) : a = b :=
  String.append_right_inj _ |>.mp h

def mark (found : String → Option OnAir) (e : String × Channel) : Option (String × Stream) :=
  (found e.2.channelId).map fun o =>
    (e.1,⟨e.2.platform,e.2.channelName,chzzkLiveUrl e.2.channelId,o.title,o.viewerCount⟩)

theorem marksOf_eq (h : ∀ e ∈ registered.entries, e.2.platform = chzzk) :
    marksOf lower registered npids found = .ok ((wanted lower registered npids).filterMap (mark found)) := by
  have hwanted : ∀ e ∈ wanted lower registered npids, e.2.platform = chzzk := fun e he => h e (List.mem_filter.mp he).1
  unfold marksOf streamsOf
  rw [List.filterMap_map]
  have hstreams : ∀ r ∈ (wanted lower registered npids).filterMap fun e => (found e.2.channelId).map fun o => (e,o),
      (do let stream ← streamOf r.1.2 r.2; pure (r.1.1,stream) : Except (StreamingError Empty) _) =
        .ok (r.1.1,⟨r.1.2.platform,r.1.2.channelName,chzzkLiveUrl r.1.2.channelId,r.2.title,r.2.viewerCount⟩) := by
    intro r hr
    obtain ⟨e,he,hr⟩ := List.mem_filterMap.mp hr
    obtain ⟨o,_,rfl⟩ := Option.map_eq_some_iff.mp hr
    unfold streamOf liveUrl
    rw [if_pos (hwanted e he)]
    rfl
  have hmap := mapM_map hstreams
  rw [List.map_filterMap] at hmap
  simp only [Function.comp_def,Option.map_map] at hmap ⊢
  exact hmap

theorem marksOf_honest {past : List ChannelTable} (hpast : ∀ t ∈ past, ∀ r ∈ t.rows, r.platform = chzzk)
    (h : Whole lower past registered) : Honest lower past (marksOf lower registered npids found) := by
  obtain ⟨t,ht,rows,⟨hperm,-⟩,rfl⟩ := h
  have hentry {e : String × Channel} (he : e ∈ (registeredOf lower rows).entries) :
      ∃ r ∈ t.rows, e = (lower r.username,⟨r.platform,r.channelId,r.channelName⟩) := by
    obtain ⟨r,hr,he⟩ := mem_registeredOf he
    exact ⟨r,hperm.mem_iff.mp hr,he⟩
  have hplatform : ∀ e ∈ (registeredOf lower rows).entries, e.2.platform = chzzk := by
    intro e he
    obtain ⟨r,hr,rfl⟩ := hentry he
    exact hpast t ht r hr
  have hmark {x : String × Stream} (hx : x ∈ (wanted lower (registeredOf lower rows) npids).filterMap (mark found)) :
      ∃ r ∈ t.rows, mark found (lower r.username,⟨r.platform,r.channelId,r.channelName⟩) = some x := by
    obtain ⟨e,he,hx⟩ := List.mem_filterMap.mp hx
    obtain ⟨r,hr,rfl⟩ := hentry (List.mem_filter.mp he).1
    exact ⟨r,hr,hx⟩
  have hurl {r : StreamChannel} {x : String × Stream}
      (hx : mark found (lower r.username,⟨r.platform,r.channelId,r.channelName⟩) = some x) :
      lower r.username = x.1 ∧ r.channelName = x.2.channelName ∧ chzzkLiveUrl r.channelId = x.2.url := by
    obtain ⟨o,_,rfl⟩ := Option.map_eq_some_iff.mp hx
    exact ⟨rfl,rfl,rfl⟩
  refine ⟨_,marksOf_eq hplatform,?_,t,ht,fun x hx => ?_⟩
  · intro x hx y hy hsame
    obtain ⟨r,hr,hrx⟩ := hmark hx
    obtain ⟨r',hr',hry⟩ := hmark hy
    have hid : r.channelId = r'.channelId := chzzkLiveUrl_inj ((hurl hrx).2.2.trans (hsame.trans (hurl hry).2.2.symm))
    have hkey : channelKey r = channelKey r' :=
      Prod.ext ((hpast t ht r hr).trans (hpast t ht r' hr').symm) hid
    rw [ChannelTable.eq_of_channelKey hr hr' hkey,hry] at hrx
    exact (Option.some.inj hrx).symm
  · obtain ⟨r,hr,hrx⟩ := hmark hx
    exact ⟨r,hr,hurl hrx⟩

end

/-! ## All answers -/
section
variable {lower sqlLower : String → String} {s s' : State} {past : List ChannelTable} {t : ChannelTable}

theorem Whole.grown {registered : Ordered String Channel} (h : Whole lower past registered) :
    Whole lower (t :: past) registered := by
  obtain ⟨t',ht',hrows⟩ := h
  exact ⟨t',List.mem_cons_of_mem t ht',hrows⟩

theorem Honest.grown {a : Except (StreamingError Empty) (List (String × Stream))} (h : Honest lower past a) :
    Honest lower (t :: past) a := by
  obtain ⟨marks,ha,hurls,t',ht',hrows⟩ := h
  exact ⟨marks,ha,hurls,t',List.mem_cons_of_mem t ht',hrows⟩

theorem honest_nobody (ht : t ∈ past) : Honest lower past (.ok []) :=
  ⟨[],rfl,List.forall_mem_nil _,t,ht,List.forall_mem_nil _⟩

theorem Lawful.commit (h : Lawful lower s) (ht : ∀ r ∈ t.rows, r.platform = chzzk) : Lawful lower (s.commit t) where
  present := List.mem_cons_self
  platform := List.forall_mem_cons.mpr ⟨ht,h.platform⟩
  cached registered hr := (h.cached registered hr).grown
  calls call c hc registered hr := (h.calls call c hc registered hr).grown
  answers a ha := (h.answers a ha).grown

theorem Lawful.goTo (h : Lawful lower s) {call : ℕ} {c : Option LiveCall}
    (hc : ∀ d ∈ c, ∀ registered ∈ d.registered?, Whole lower s.past registered) : Lawful lower (s.goTo call c) where
  present := h.present
  platform := h.platform
  cached := h.cached
  calls i d hd := by
    by_cases hi : i = call
    · subst hi
      exact hc d (by simpa [State.goTo] using hd)
    · exact h.calls i d (by simpa [State.goTo,hi] using hd)
  answers := h.answers

theorem registerChannel_ok {username text : String}
    {found : String → Except (PlatformFault ReadFault) (Option PlatformChannel)}
    {now : ℤ} {row : StreamChannel} {t t' : ChannelTable}
    (h : registerChannel lower username text found now t = .ok (row,t')) :
    registration lower username text found now = .ok row ∧ t.upsert row = some t' := by
  unfold registerChannel at h
  cases hrow : registration lower username text found now with
  | error e =>
    rw [hrow] at h
    cases h
  | ok row' =>
    rw [hrow] at h
    cases hupsert : t.upsert row' with
    | none =>
      simp only [bind,Except.bind,hupsert] at h
      cases h
    | some t'' =>
      simp only [bind,Except.bind,hupsert] at h
      cases h
      exact ⟨rfl,hupsert⟩

theorem registration_ok {username text : String}
    {found : String → Except (PlatformFault ReadFault) (Option PlatformChannel)}
    {now : ℤ} {row : StreamChannel} (h : registration lower username text found now = .ok row) :
    row.username = username ∧ row.platform = chzzk := by
  unfold registration at h
  split at h
  · cases h
  · split at h
    · cases h
    · cases h
    · split at h
      · cases h
        exact ⟨rfl,rfl⟩
      · cases h

theorem Lawful.step {a : Action} (h : Lawful lower s) (hstep : step lower sqlLower s a = some s') :
    Lawful lower s' := by
  cases a with
  | register username text found now =>
    simp only [Streaming.step] at hstep
    split at hstep
    · cases hstep
      exact h
    · rename_i row t hok
      cases hstep
      obtain ⟨hrow,hupsert⟩ := registerChannel_ok hok
      refine h.commit fun r hr => ?_
      rcases (ChannelTable.mem_upsert hupsert).mp hr with ⟨hr,_⟩ | rfl
      · exact h.platform _ h.present r hr
      · exact (registration_ok hrow).2
  | remove username =>
    cases hstep
    exact h.commit fun r hr => h.platform _ h.present r (ChannelTable.mem_delete'.mp hr).1
  | drop =>
    cases hstep
    exact { h with cached := fun _ hr => by cases hr }
  | look call =>
    simp only [Streaming.step] at hstep
    split at hstep
    · cases hstep
    · cases hstep
      refine h.goTo fun d hd registered hr => ?_
      cases hcached : s.cached with
      | none =>
        rw [hcached] at hd
        cases hd
        cases hr
      | some registered' =>
        rw [hcached] at hd
        cases hd
        cases hr
        exact h.cached _ hcached
  | list call rows =>
    simp only [Streaming.step] at hstep
    split at hstep
    · split at hstep
      · rename_i hlisted
        cases hstep
        refine h.goTo fun d hd registered hr => ?_
        cases hd
        cases hr
        exact ⟨s.channels,h.present,rows,hlisted,rfl⟩
      · cases hstep
    · cases hstep
  | keep call =>
    simp only [Streaming.step] at hstep
    split at hstep
    · rename_i registered hcall
      cases hstep
      have hwhole : Whole lower s.past registered := h.calls call _ hcall registered rfl
      have hmoved : Lawful lower (s.goTo call (some (.checking registered))) := by
        refine h.goTo fun d hd registered' hr => ?_
        cases hd
        cases hr
        exact hwhole
      refine { hmoved with cached := fun registered' hr => ?_ }
      cases hr
      exact hwhole
    · cases hstep
  | answer call npids found =>
    simp only [Streaming.step] at hstep
    split at hstep
    · rename_i registered hcall
      cases hstep
      have hhonest : Honest lower s.past (marksOf lower registered npids found) :=
        marksOf_honest h.platform (h.calls call _ hcall registered rfl)
      have hmoved : Lawful lower (s.goTo call none) := h.goTo fun d hd => by cases hd
      exact { hmoved with answers := List.forall_mem_cons.mpr ⟨hhonest,h.answers⟩ }
    · cases hstep
  | raise call =>
    simp only [Streaming.step] at hstep
    split at hstep
    · cases hstep
      have hmoved : Lawful lower (s.goTo call none) := h.goTo fun d hd => by cases hd
      exact { hmoved with answers := List.forall_mem_cons.mpr ⟨honest_nobody h.present,h.answers⟩ }
    · cases hstep

theorem lawful_start : Lawful lower (site lower sqlLower).start where
  present := List.mem_singleton.mpr rfl
  platform t ht r hr := by
    rw [List.mem_singleton.mp ht] at hr
    cases hr
  cached _ hr := by cases hr
  calls _ _ hc := by cases hc
  answers _ ha := by cases ha

theorem reached_lawful (h : (site lower sqlLower).Reached s) : Lawful lower s :=
  h.invariant lawful_start fun hlawful _ hstep => hlawful.step hstep

end

/-- Whatever is registered, removed, cached and dropped meanwhile, no answer marks two players with one channel, and
the players of one answer all had theirs registered at one moment. -/
theorem live_marks_single {lower sqlLower : String → String} {s : State} (h : (site lower sqlLower).Reached s)
    {a : Except (StreamingError Empty) (List (String × Stream))} (ha : a ∈ s.answers) :
    ∃ marks, a = .ok marks ∧ (∀ x ∈ marks, ∀ y ∈ marks, x.2.url = y.2.url → x = y) ∧
      ∃ t ∈ s.past, ∀ x ∈ marks, ∃ r ∈ t.rows,
        lower r.username = x.1 ∧ r.channelName = x.2.channelName ∧ chzzkLiveUrl r.channelId = x.2.url :=
  (reached_lawful h).answers a ha

def someId : String := "0123456789abcdef0123456789abcdef"

def foundChannel (channelId : String) : Except (PlatformFault ReadFault) (Option PlatformChannel) :=
  .ok (some ⟨.str channelId,.str "Alice"⟩)

def otherId : String := "00000000000000000000000000000000"

/-- Alice and Carol register, a visitor's call reads it, another's fails, and Bob tries Alice's channel before the
first is answered. -/
def shownActions : List Action :=
  [.register "Alice" someId foundChannel 1,.register "Carol" otherId foundChannel 2,.look 0,.look 1,.raise 1,
    .list 0 [⟨"Carol",chzzk,otherId,"Alice",2⟩,⟨"Alice",chzzk,someId,"Alice",1⟩],.keep 0,
    .register "Bob" someId foundChannel 3,.answer 0 ["ALICE","bob","Carol"] fun _ => some ⟨.str "TTT2",3⟩]

def shownSite : State :=
  ((site asciiLower asciiLower).run (site asciiLower asciiLower).start shownActions).getD (site id id).start

theorem shown_marks_single : ∃ marks, .ok marks ∈ shownSite.answers ∧ marks.map Prod.fst = ["carol","alice"] ∧
    (∀ x ∈ marks, ∀ y ∈ marks, x.2.url = y.2.url → x = y) ∧ ∃ t ∈ shownSite.past, ∀ x ∈ marks, ∃ r ∈ t.rows,
      asciiLower r.username = x.1 ∧ r.channelName = x.2.channelName ∧ chzzkLiveUrl r.channelId = x.2.url := by
  have hrun : (site asciiLower asciiLower).run (site asciiLower asciiLower).start shownActions = some shownSite := rfl
  have hanswers : shownSite.answers = [.ok [("carol",⟨chzzk,"Alice",chzzkLiveUrl otherId,.str "TTT2",3⟩),
      ("alice",⟨chzzk,"Alice",chzzkLiveUrl someId,.str "TTT2",3⟩)],.ok []] := rfl
  obtain ⟨marks,hmarks,hsingle⟩ := live_marks_single (Machine.Reachable.start.run hrun)
    (hanswers ▸ List.mem_cons_self)
  obtain rfl := Except.ok.inj hmarks
  exact ⟨_,hanswers ▸ List.mem_cons_self,rfl,hsingle⟩

/-! ## What stays registered -/

/-- Whose registration a step is about; a removal is about all the spellings of a name. -/
def Action.Touches (lower sqlLower : String → String) (username : String) : Action → Prop
  | .register u _ _ _ => u = username
  | .remove u => sqlLower username = lower u
  | _ => False

section
variable {lower sqlLower : String → String} {s s' : State} {r : StreamChannel}

theorem kept_by_step {a : Action} (hr : r ∈ s.channels.rows) (hothers : ¬ a.Touches lower sqlLower r.username)
    (hstep : step lower sqlLower s a = some s') : r ∈ s'.channels.rows := by
  cases a with
  | register username text found now =>
    simp only [Streaming.step] at hstep
    split at hstep
    · cases hstep
      exact hr
    · rename_i row t hok
      cases hstep
      obtain ⟨hrow,hupsert⟩ := registerChannel_ok hok
      refine (ChannelTable.mem_upsert hupsert).mpr (.inl ⟨hr,fun hkey => hothers ?_⟩)
      exact (registration_ok hrow).1.symm.trans (congrArg Prod.fst hkey).symm
  | remove username =>
    cases hstep
    exact ChannelTable.mem_delete'.mpr ⟨hr,fun h => hothers h.1⟩
  | drop =>
    cases hstep
    exact hr
  | look call =>
    simp only [Streaming.step] at hstep
    split at hstep
    · cases hstep
    · cases hstep
      exact hr
  | list call rows =>
    simp only [Streaming.step] at hstep
    split at hstep
    · split at hstep
      · cases hstep
        exact hr
      · cases hstep
    · cases hstep
  | keep call =>
    simp only [Streaming.step] at hstep
    split at hstep
    · cases hstep
      exact hr
    · cases hstep
  | answer call _ _ | raise call =>
    simp only [Streaming.step] at hstep
    split at hstep
    · cases hstep
      exact hr
    · cases hstep

theorem kept_by_run {actions : List Action} (hr : r ∈ s.channels.rows)
    (hothers : ∀ a ∈ actions, ¬ a.Touches lower sqlLower r.username)
    (hrun : (site lower sqlLower).run s actions = some s') : r ∈ s'.channels.rows := by
  induction actions generalizing s with
  | nil =>
    cases hrun
    exact hr
  | cons a actions ih =>
    obtain ⟨ha,hrest⟩ := List.forall_mem_cons.mp hothers
    cases hstep : step lower sqlLower s a with
    | none =>
      unfold Machine.run at hrun
      rw [List.foldlM_cons,show (site lower sqlLower).step s a = none from hstep] at hrun
      cases hrun
    | some next =>
      rw [Machine.run_cons (show (site lower sqlLower).step s a = some next from hstep)] at hrun
      exact ih (kept_by_step hr ha hstep) hrest hrun

end

def shownAs (r : StreamChannel) : StreamChannelOut :=
  ⟨r.platform,r.channelId,r.channelName,chzzkLiveUrl r.channelId,r.registeredAt⟩

theorem channelOut_chzzk {r : StreamChannel} (h : r.platform = chzzk) :
    (channelOut r : Except (StreamingError Empty) _) = .ok (shownAs r) := by
  unfold channelOut liveUrl
  rw [if_pos h]
  rfl

theorem listChannels_chzzk {rows : List StreamChannel} (h : ∀ r ∈ rows, r.platform = chzzk) :
    (listChannels rows : Except (StreamingError Empty) _) = .ok (rows.map fun r => (shownAs r,r.username)) := by
  apply mapM_map
  intro r hr
  rw [channelOut_chzzk (h r hr)]
  rfl

/-- No steps of other accounts take a registered channel from its account: it is still shown to its owner and the
admins, and every other account that would register it is refused. -/
theorem registration_kept {lower sqlLower : String → String} {s s' : State} (h : (site lower sqlLower).Reached s)
    {r : StreamChannel} (hr : r ∈ s.channels.rows) {actions : List Action}
    (hothers : ∀ a ∈ actions, ¬ a.Touches lower sqlLower r.username)
    (hrun : (site lower sqlLower).run s actions = some s') :
    (getMyChannel s'.channels r.username : Except (StreamingError Empty) _) = .ok (some (shownAs r)) ∧
      (∀ rows, s'.channels.Listed rows → ∃ outs, (listChannels rows : Except (StreamingError Empty) _) = .ok outs ∧
        (shownAs r,r.username) ∈ outs) ∧
      ∀ username text found now row, username ≠ r.username →
        registration lower username text found now = .ok row → row.channelId = r.channelId →
          registerChannel lower username text found now s'.channels =
            .error (.channelTaken "이미 다른 계정에 연결된 채널입니다. 본인 채널이라면 관리자에게 문의해 주세요.") := by
  have hkept := kept_by_run hr hothers hrun
  have hlawful := reached_lawful (h.run hrun)
  have hchzzk : ∀ c ∈ s'.channels.rows, c.platform = chzzk := hlawful.platform _ hlawful.present
  refine ⟨?_,fun rows hrows => ?_,fun username text found now row hne hrow hid => ?_⟩
  · have hget : s'.channels.get? (r.username,chzzk) = some r := by
      rw [← hchzzk r hkept]
      exact Table.get?_of_mem hkept
    unfold getMyChannel
    rw [hget,Option.mapM_some,channelOut_chzzk (hchzzk r hkept)]
    rfl
  · exact ⟨_,listChannels_chzzk fun c hc => hchzzk c (hrows.1.mem_iff.mp hc),
      List.mem_map.mpr ⟨r,hrows.1.mem_iff.mpr hkept,rfl⟩⟩
  · obtain ⟨hname,hplatform⟩ := registration_ok hrow
    have htaken : s'.channels.Taken row := by
      refine ⟨r,hkept,fun hkey => hne (hname.symm.trans (congrArg Prod.fst hkey).symm),?_⟩
      exact Prod.ext ((hchzzk r hkept).trans hplatform.symm) hid.symm
    unfold registerChannel
    rw [hrow]
    simp only [bind,Except.bind,ChannelTable.upsert_none htaken]

def aliceRow : StreamChannel := ⟨"Alice",chzzk,someId,"Alice",1⟩

def aliceOnly : State :=
  ((site asciiLower asciiLower).run (site asciiLower asciiLower).start [.register "Alice" someId foundChannel 1]).getD
    (site id id).start

def otherActions : List Action :=
  [.register "Bob" otherId foundChannel 2,.remove "Carol"]

/-- Alice keeps her channel while Bob registers another and an admin removes Carol's. -/
theorem registration_kept_alice :
    (getMyChannel (((site asciiLower asciiLower).run aliceOnly otherActions).getD (site id id).start).channels "Alice" :
      Except (StreamingError Empty) _) = .ok (some (shownAs aliceRow)) := by
  have hothers : ∀ a ∈ otherActions, ¬ a.Touches asciiLower asciiLower aliceRow.username := by
    intro a ha
    rcases List.mem_cons.mp ha with rfl | ha
    · exact fun h => absurd h (by decide : ¬ "Bob" = "Alice")
    · rw [List.mem_singleton.mp ha]
      exact fun h => absurd h (by decide : ¬ asciiLower "Alice" = asciiLower "Carol")
  have hrun : (site asciiLower asciiLower).run (site asciiLower asciiLower).start
      [.register "Alice" someId foundChannel 1] = some aliceOnly := rfl
  have halice : aliceRow ∈ aliceOnly.channels.rows := List.mem_singleton.mpr (by decide)
  have hrun' : (site asciiLower asciiLower).run aliceOnly otherActions =
      some (((site asciiLower asciiLower).run aliceOnly otherActions).getD (site id id).start) := rfl
  exact (registration_kept (Machine.Reachable.start.run hrun) halice hothers hrun').1

end Tag2now.Streaming
