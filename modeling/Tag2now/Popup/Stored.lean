import Tag2now.Popup.Images
import Tag2now.Shared.Basics

/-! # Stored popups

What the routes let in is checked once, on its way in: the form by its fields, the upload by
its bytes, of which no more are read than the check needs. Every popup that is ever stored,
listed or served has passed these checks.
-/
namespace Tag2now.Popups

/-! ## The form -/

def maxTitleLength : ℕ := 100
def maxBodyLength : ℕ := 2000

inductive FormError
  | titleTooShort
  | titleTooLong
  | body (message : String)
  deriving DecidableEq

/-- `strip_whitespace` of a string constraint. -/
def stripWhitespace (s : String) : String := trim isWhitespace s

/-- `replace("\r\n","\n")`. -/
def replaceCrlf : List Char → List Char
  | '\r' :: '\n' :: cs => '\n' :: replaceCrlf cs
  | c :: cs => c :: replaceCrlf cs
  | [] => []

/-- The limit counts what the admin typed. -/
def popupBody (text : String) : Except FormError String :=
  let body := strip (String.ofList (replaceCrlf text.toList))
  if maxBodyLength < body.length then .error (.body "내용은 2000자를 넘을 수 없습니다.") else .ok body

structure PopupForm where
  title : String
  body : String
  allowDismissForever : Bool
  allowDismissDay : Bool
  active : Bool

def popupContent (form : PopupForm) : Except FormError PopupContent := do
  let title := stripWhitespace form.title
  if title.length < 1 then .error .titleTooShort
  if maxTitleLength < title.length then .error .titleTooLong
  let body ← popupBody form.body
  return ⟨title,body,form.allowDismissForever,form.allowDismissDay,form.active⟩

/-- One byte past the limit is enough for the size check to refuse it. -/
def uploadedImage (image : Option (List UInt8)) : Option (List UInt8) := image.map (·.take (maxImageBytes + 1))

/-! ## The routes -/

/-- What arrives at the routes, and an entry of the cache running out. -/
inductive Arrival
  | createPopup (form : PopupForm) (image : Option (List UInt8)) (admin : String) (now : ℤ)
  | updatePopup (popupId : ℕ) (form : PopupForm) (image : Option (List UInt8)) (removeImage : Bool) (now : ℤ)
  | deletePopup (popupId : ℕ)
  | activePopups
  | expire
  | popupImage (popupId : ℕ) (v : String)

/-- The request a route makes of it, unless the form is refused. -/
def Arrival.request : Arrival → Except FormError Request
  | .createPopup form image admin now =>
    (popupContent form).map fun content => .create content (uploadedImage image) admin now
  | .updatePopup popupId form image removeImage now =>
    (popupContent form).map fun content => .update popupId content (uploadedImage image) removeImage now
  | .deletePopup popupId => .ok (.delete popupId)
  | .activePopups => .ok .active
  | .expire => .ok .expire
  | .popupImage popupId v => .ok (.image popupId v)

section
variable (hash : List UInt8 → String)

def Site.serve (site : Site) (arrival : Arrival) : Site :=
  (arrival.request.toOption.map (site.after hash)).getD site

def Site.serveAll (site : Site) (arrivals : List Arrival) : Site := arrivals.foldl (Site.serve hash) site

/-! ## What is stored -/

structure Fits (content : PopupContent) : Prop where
  title : 1 ≤ content.title.length ∧ content.title.length ≤ maxTitleLength
  body : content.body.length ≤ maxBodyLength

/-- The bytes are of the type they are served as. -/
structure Proven (image : PopupImage) : Prop where
  size : image.data.length ≤ maxImageBytes
  type : sniff image.data = some image.contentType
  hash : image.hash = hash image.data

/-- What a request writes. -/
def Fitting : Request → Prop
  | .create content _ _ _ => Fits content
  | .update _ content _ _ _ => Fits content
  | _ => True

structure RowSound (row : PopupRow) : Prop where
  content : Fits row.content
  image : ∀ image, row.image = some image → Proven hash image

structure TableSound (t : PopupTable) : Prop where
  ascending : t.rows.Pairwise fun a b => a.id < b.id
  drawn : ∀ row ∈ t.rows, 1 ≤ row.id ∧ row.id < t.nextId
  next : 1 ≤ t.nextId
  row : ∀ row ∈ t.rows, RowSound hash row

structure Sound (site : Site) : Prop where
  table : TableSound hash site.table
  cached : ∀ popups, site.cached = some popups → popups = (site.table.listPopups true).map popupOut
  served : ∀ r ∈ site.responses, r.data.length ≤ maxImageBytes ∧ sniff r.data = some r.mediaType

end

/-! ## The checks -/

theorem popupBody_length {text body : String} (h : popupBody text = .ok body) : body.length ≤ maxBodyLength := by
  unfold popupBody at h
  dsimp only at h
  split at h
  · cases h
  · rename_i hlength
    rw [← Except.ok.inj h]
    exact Nat.le_of_not_lt hlength

theorem popupContent_fits {form : PopupForm} {content : PopupContent} (h : popupContent form = .ok content) :
    Fits content := by
  unfold popupContent at h
  simp only [bind,Except.bind,pure,Except.pure] at h
  split at h
  · cases h
  · rename_i hshort
    split at h
    · cases h
    · rename_i hlong
      cases hbody : popupBody form.body with
      | error e =>
        rw [hbody] at h
        cases h
      | ok body =>
        rw [hbody] at h
        rw [← Except.ok.inj h]
        exact ⟨⟨Nat.le_of_not_lt hshort,Nat.le_of_not_lt hlong⟩,popupBody_length hbody⟩

section
variable {hash : List UInt8 → String}

theorem parseImage_take (data : List UInt8) :
    parseImage hash (data.take (maxImageBytes + 1)) = parseImage hash data := by
  by_cases hlarge : maxImageBytes < data.length
  · have htaken : maxImageBytes < (data.take (maxImageBytes + 1)).length := by
      rw [List.length_take]
      omega
    rw [parseImage,parseImage,if_pos hlarge,if_pos htaken]
  · rw [List.take_of_length_le (by omega)]

theorem parseUpload_uploadedImage (image : Option (List UInt8)) :
    parseUpload hash (uploadedImage image) = parseUpload hash image := by
  cases image with
  | none => rfl
  | some data => exact congrArg (Except.map some) (parseImage_take data)

theorem parseImage_proven {data : List UInt8} {image : PopupImage} (h : parseImage hash data = .ok image) :
    Proven hash image := by
  unfold parseImage at h
  split at h
  · cases h
  · rename_i hsize
    split at h
    · cases h
    · rename_i contentType htype
      cases h
      exact ⟨Nat.le_of_not_lt hsize,htype,rfl⟩

theorem parseUpload_proven {upload : Option (List UInt8)} {parsed : Option PopupImage}
    (h : parseUpload hash upload = .ok parsed) : ∀ image, parsed = some image → Proven hash image := by
  cases upload with
  | none =>
    cases h
    nofun
  | some data =>
    cases hparse : parseImage hash data with
    | error e => simp [parseUpload,hparse,Except.map] at h
    | ok found =>
      obtain rfl : some found = parsed := by simpa [parseUpload,hparse,Except.map] using h
      intro image himage
      cases himage
      exact parseImage_proven hparse

/-! ## The table -/

variable {t : PopupTable} {content : PopupContent} {image : Option PopupImage}

theorem TableSound.create (h : TableSound hash t) (hcontent : Fits content)
    (himage : ∀ i, image = some i → Proven hash i) (createdBy : String) (now : ℤ) :
    TableSound hash (t.create content image createdBy now) := by
  have hmem {row : PopupRow} (hrow : row ∈ (t.create content image createdBy now).rows) :
      row ∈ t.rows ∨ row = ⟨t.nextId,content,image,createdBy,now,now⟩ := by
    simpa [PopupTable.create] using hrow
  constructor
  · apply List.pairwise_append.mpr
    refine ⟨h.ascending,by simp,?_⟩
    intro a ha b hb
    rw [List.mem_singleton.mp hb]
    exact (h.drawn a ha).2
  · intro row hrow
    rcases hmem hrow with hrow | rfl
    · exact ⟨(h.drawn row hrow).1,Nat.lt_succ_of_lt (h.drawn row hrow).2⟩
    · exact ⟨h.next,Nat.lt_succ_self _⟩
  · exact Nat.le_succ_of_le h.next
  · intro row hrow
    rcases hmem hrow with hrow | rfl
    · exact h.row row hrow
    · exact ⟨hcontent,himage⟩

theorem TableSound.update (h : TableSound hash t) (hcontent : Fits content)
    (himage : ∀ i, image = some i → Proven hash i) {popupId : ℕ} {removeImage : Bool} {now : ℤ} {t' : PopupTable}
    (hok : t.update popupId content image removeImage now = some t') : TableSound hash t' := by
  unfold PopupTable.update at hok
  split at hok
  · cases hok
    have hid (row : PopupRow) : (if row.id = popupId then
        PopupTable.updated content image removeImage now row else row).id = row.id := by
      split <;> rfl
    constructor
    · apply List.pairwise_map.mpr
      simpa only [hid] using h.ascending
    · intro row hrow
      obtain ⟨old,hold,rfl⟩ := List.mem_map.mp hrow
      rw [hid]
      exact h.drawn old hold
    · exact h.next
    · intro row hrow
      obtain ⟨old,hold,rfl⟩ := List.mem_map.mp hrow
      split
      · refine ⟨hcontent,fun i hi => ?_⟩
        simp only [PopupTable.updated] at hi
        split at hi
        · exact himage i hi
        · exact (h.row old hold).image i hi
      · exact h.row old hold
  · cases hok

theorem TableSound.delete (h : TableSound hash t) {popupId : ℕ} {t' : PopupTable}
    (hok : t.delete popupId = some t') : TableSound hash t' := by
  unfold PopupTable.delete at hok
  split at hok
  · cases hok
    exact ⟨h.ascending.sublist List.filter_sublist,fun row hrow => h.drawn row (List.mem_filter.mp hrow).1,h.next,
      fun row hrow => h.row row (List.mem_filter.mp hrow).1⟩
  · cases hok

/-! ## A run -/

variable {site : Site}

theorem Sound.listActive (h : Sound hash site) : site.listActive = (site.table.listPopups true).map popupOut := by
  unfold Site.listActive
  cases hcached : site.cached with
  | none => rfl
  | some popups => exact h.cached popups hcached

/-- A write clears the cache with the table. -/
theorem Sound.written (h : Sound hash site) {table : PopupTable} (htable : TableSound hash table) :
    Sound hash { site with table, cached := none } := ⟨htable,nofun,h.served⟩

theorem Sound.answers (h : Sound hash site) {request : Request} {site' : Site} (hfits : Fitting request)
    (hok : site.answers hash request = .ok site') : Sound hash site' := by
  cases request with
  | create content data createdBy now =>
    cases hparse : parseUpload hash data with
    | error e => simp [Site.answers,Site.create,hparse,bind,Except.bind] at hok
    | ok image =>
      simp only [Site.answers,Site.create,hparse,bind,Except.bind,pure,Except.pure,Except.ok.injEq] at hok
      subst hok
      exact h.written (h.table.create hfits (parseUpload_proven hparse) createdBy now)
  | update popupId content data removeImage now =>
    cases hparse : parseUpload hash data with
    | error e => simp [Site.answers,Site.update,hparse,bind,Except.bind] at hok
    | ok image =>
      simp only [Site.answers,Site.update,hparse,bind,Except.bind,pure,Except.pure] at hok
      split at hok
      · cases hok
      · rename_i table htable
        cases hok
        exact h.written (h.table.update hfits (parseUpload_proven hparse) htable)
  | delete popupId =>
    simp only [Site.answers,Site.delete] at hok
    split at hok
    · cases hok
    · rename_i table htable
      cases hok
      exact h.written (h.table.delete htable)
  | active =>
    cases hok
    refine ⟨h.table,?_,h.served⟩
    intro popups hpopups
    cases hpopups
    exact h.listActive
  | expire =>
    cases hok
    exact ⟨h.table,nofun,h.served⟩
  | image popupId v =>
    cases himage : site.table.getImage popupId with
    | none => simp [Site.answers,Site.popupImage,Site.getImage,himage,bind,Except.bind] at hok
    | some image =>
      simp only [Site.answers,Site.popupImage,Site.getImage,himage,Option.elim_some,bind,Except.bind,pure,Except.pure,
        Except.ok.injEq] at hok
      subst hok
      refine ⟨h.table,h.cached,?_⟩
      obtain ⟨row,hrow,hstored⟩ := Option.bind_eq_some_iff.mp himage
      have hproven : Proven hash image := (h.table.row row (List.mem_of_find?_eq_some hrow)).image image hstored
      intro r hr
      rcases List.mem_cons.mp hr with rfl | hr
      · exact ⟨hproven.size,hproven.type⟩
      · exact h.served r hr

theorem request_fitting {arrival : Arrival} {request : Request} (h : arrival.request = .ok request) :
    Fitting request := by
  cases arrival with
  | createPopup form image admin now =>
    simp only [Arrival.request] at h
    cases hform : popupContent form with
    | error e => simp [hform,Except.map] at h
    | ok content =>
      simp only [hform,Except.map,Except.ok.injEq] at h
      exact h ▸ popupContent_fits hform
  | updatePopup popupId form image removeImage now =>
    simp only [Arrival.request] at h
    cases hform : popupContent form with
    | error e => simp [hform,Except.map] at h
    | ok content =>
      simp only [hform,Except.map,Except.ok.injEq] at h
      exact h ▸ popupContent_fits hform
  | _ =>
    simp only [Arrival.request,Except.ok.injEq] at h
    exact h ▸ trivial

theorem Sound.serve (h : Sound hash site) (arrival : Arrival) : Sound hash (site.serve hash arrival) := by
  unfold Site.serve
  cases hrequest : arrival.request with
  | error e => exact h
  | ok request =>
    change Sound hash (site.after hash request)
    cases hanswers : site.answers hash request with
    | error e =>
      rw [After.unchanged hanswers]
      exact h
    | ok site' =>
      rw [After.changed hanswers]
      exact h.answers (request_fitting hrequest) hanswers

theorem Sound.serveAll (h : Sound hash site) (arrivals : List Arrival) : Sound hash (site.serveAll hash arrivals) := by
  induction arrivals generalizing site with
  | nil => exact h
  | cons arrival arrivals ih => exact ih (h.serve arrival)

end

theorem sound_empty (hash : List UInt8 → String) : Sound hash .empty :=
  ⟨⟨.nil,by simp [Site.empty],Nat.le_refl 1,by simp [Site.empty]⟩,nofun,by simp [Site.empty]⟩

/-- After any requests every popup stored, listed and served passed the checks, though an upload is not read to its end,
and visitors see what is stored. -/
theorem popups_sound (hash : List UInt8 → String) (arrivals : List Arrival) :
    Sound hash (Site.empty.serveAll hash arrivals) ∧
    (Site.empty.serveAll hash arrivals).listActive =
      (((Site.empty.serveAll hash arrivals).table.listPopups true).map popupOut) ∧
    (((Site.empty.serveAll hash arrivals).table.listPopups true).map (·.id)).Pairwise (fun a b => b < a) ∧
    ∀ image, parseUpload hash (uploadedImage image) = parseUpload hash image := by
  have hsound : Sound hash (Site.empty.serveAll hash arrivals) := (sound_empty hash).serveAll arrivals
  refine ⟨hsound,hsound.listActive,?_,parseUpload_uploadedImage⟩
  unfold PopupTable.listPopups
  rw [List.map_reverse,List.pairwise_reverse,List.map_map]
  exact List.pairwise_map.mpr (hsound.table.ascending.sublist List.filter_sublist)

end Tag2now.Popups
