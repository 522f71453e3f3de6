import Tag2now.Popup.Service

/-! # Popup images

An image is listed under a URL with its hash and looked up by its popup alone. The hash of
the bytes is a parameter: sixteen hexadecimal digits of their SHA-256.
-/
namespace Tag2now.Popups

structure PopupImage where
  data : List UInt8
  contentType : String
  hash : String
  deriving DecidableEq

inductive PopupError
  | invalidImage (message : String)
  | notFound (message : String)
  deriving DecidableEq

def maxImageBytes : ℕ := 5 * 1024 * 1024

def notFound : String := "팝업을 찾을 수 없습니다."

/-- The type the bytes prove. -/
def sniff (data : List UInt8) : Option String :=
  if [0x89,0x50,0x4E,0x47,0x0D,0x0A,0x1A,0x0A].isPrefixOf data then some "image/png"
  else if [0xFF,0xD8,0xFF].isPrefixOf data then some "image/jpeg"
  else if data.take 6 = [0x47,0x49,0x46,0x38,0x37,0x61] ∨ data.take 6 = [0x47,0x49,0x46,0x38,0x39,0x61] then
    some "image/gif"
  else if data.take 4 = [0x52,0x49,0x46,0x46] ∧ (data.drop 8).take 4 = [0x57,0x45,0x42,0x50] then some "image/webp"
  else none

/-- A stored popup. The three columns of its image are always written together. -/
structure PopupRow where
  id : ℕ
  content : PopupContent
  image : Option PopupImage
  createdBy : String
  createdAt : ℤ
  updatedAt : ℤ

def PopupRow.popup (row : PopupRow) : Popup :=
  ⟨row.id,row.content,row.image.map (·.hash),row.createdBy,row.createdAt,row.updatedAt⟩

/-- Newest last. Ids are given out once. -/
structure PopupTable where
  rows : List PopupRow
  nextId : ℕ

namespace PopupTable
variable (t : PopupTable)

def listPopups (activeOnly : Bool) : List Popup :=
  ((t.rows.filter fun row => !activeOnly || row.content.active).map (·.popup)).reverse

def getImage (popupId : ℕ) : Option PopupImage := (t.rows.find? fun row => row.id = popupId).bind (·.image)

def create (content : PopupContent) (image : Option PopupImage) (createdBy : String) (now : ℤ) : PopupTable :=
  ⟨t.rows ++ [⟨t.nextId,content,image,createdBy,now,now⟩],t.nextId + 1⟩

def updated (content : PopupContent) (image : Option PopupImage) (removeImage : Bool) (now : ℤ)
    (row : PopupRow) : PopupRow :=
  { row with content, updatedAt := now, image := if image.isSome || removeImage then image else row.image }

/-- None where there is no such popup. -/
def update (popupId : ℕ) (content : PopupContent) (image : Option PopupImage) (removeImage : Bool) (now : ℤ) :
    Option PopupTable :=
  if popupId ∈ t.rows.map (·.id) then
    some { t with rows := t.rows.map fun row =>
      if row.id = popupId then updated content image removeImage now row else row }
  else none

def delete (popupId : ℕ) : Option PopupTable :=
  if popupId ∈ t.rows.map (·.id) then some { t with rows := t.rows.filter fun row => row.id ≠ popupId } else none

end PopupTable

section
variable (hash : List UInt8 → String)

/-- Judge an upload by its bytes. -/
def parseImage (data : List UInt8) : Except PopupError PopupImage :=
  if maxImageBytes < data.length then .error (.invalidImage "이미지는 5MB를 넘을 수 없습니다.")
  else
    match sniff data with
    | none => .error (.invalidImage "PNG, JPEG, WebP, GIF 이미지만 올릴 수 있습니다.")
    | some contentType => .ok ⟨data,contentType,hash data⟩

def parseUpload : Option (List UInt8) → Except PopupError (Option PopupImage)
  | none => .ok none
  | some data => (parseImage hash data).map some

/-- What admins do, and what visitors ask for. An entry of the cache may also run out. -/
inductive Request
  | create (content : PopupContent) (image : Option (List UInt8)) (createdBy : String) (now : ℤ)
  | update (popupId : ℕ) (content : PopupContent) (image : Option (List UInt8)) (removeImage : Bool) (now : ℤ)
  | delete (popupId : ℕ)
  | active
  | expire
  | image (popupId : ℕ) (v : String)

/-- An answer with the immutable `Cache-Control`, and the URL it was for. -/
structure ImageResponse where
  popupId : ℕ
  v : String
  data : List UInt8
  mediaType : String

structure Site where
  table : PopupTable
  cached : Option (List PopupOut)
  /-- The image paths that visitors were given. -/
  given : List String
  responses : List ImageResponse

def Site.empty : Site := ⟨⟨[],1⟩,none,[],[]⟩

namespace Site
variable (site : Site)

def create (content : PopupContent) (data : Option (List UInt8)) (createdBy : String) (now : ℤ) :
    Except PopupError Site := do
  let image ← parseUpload hash data
  return { site with table := site.table.create content image createdBy now, cached := none }

def update (popupId : ℕ) (content : PopupContent) (data : Option (List UInt8)) (removeImage : Bool) (now : ℤ) :
    Except PopupError Site := do
  let image ← parseUpload hash data
  match site.table.update popupId content image removeImage now with
  | none => .error (.notFound notFound)
  | some table => return { site with table, cached := none }

def delete (popupId : ℕ) : Except PopupError Site :=
  match site.table.delete popupId with
  | none => .error (.notFound notFound)
  | some table => .ok { site with table, cached := none }

def listActive : List PopupOut := site.cached.getD ((site.table.listPopups true).map popupOut)

def active : Site :=
  { site with cached := some site.listActive, given := site.given ++ site.listActive.filterMap (·.imagePath) }

def getImage (popupId : ℕ) : Except PopupError PopupImage :=
  (site.table.getImage popupId).elim (.error (.notFound notFound)) .ok

/-- The route takes no notice of the URL's `v`. -/
def popupImage (popupId : ℕ) (v : String) : Except PopupError Site := do
  let image ← site.getImage popupId
  return { site with responses := ⟨popupId,v,image.data,image.contentType⟩ :: site.responses }

def answers : Request → Except PopupError Site
  | .create content data createdBy now => site.create hash content data createdBy now
  | .update popupId content data removeImage now => site.update hash popupId content data removeImage now
  | .delete popupId => site.delete popupId
  | .active => .ok site.active
  | .expire => .ok { site with cached := none }
  | .image popupId v => site.popupImage popupId v

/-- A request that is refused changes nothing. -/
def after (request : Request) : Site := (site.answers hash request).toOption.getD site

def run (requests : List Request) : Site := requests.foldl (after hash) site

end Site

/-- For one URL the same bytes, and those of the hash it names. -/
def Immutable (responses : List ImageResponse) : Prop :=
  ∀ r ∈ responses, hash r.data = r.v ∧ ∀ r' ∈ responses, r'.popupId = r.popupId → r'.v = r.v → r'.data = r.data

def uploads (requests : List Request) : List (List UInt8) :=
  requests.flatMap fun
    | .create _ data _ _ | .update _ _ data _ _ => data.toList
    | _ => []

/-- An image asked for is the one the URL names, if the popup has one. -/
def Current (site : Site) : Request → Prop
  | .image popupId v => ∀ image, site.table.getImage popupId = some image → image.hash = v
  | _ => True

/-- Each request of a run finds the image it asks for. -/
def AllCurrent : Site → List Request → Prop
  | _,[] => True
  | site,request :: requests => Current site request ∧ AllCurrent (site.after hash request) requests

/-! ## What a run keeps -/

/-- What is stored and what was answered came from these uploads, and is stored under its hash. -/
structure From (data : List (List UInt8)) (site : Site) : Prop where
  stored : ∀ row ∈ site.table.rows, ∀ image, row.image = some image → image.hash = hash image.data ∧ image.data ∈ data
  answered : ∀ r ∈ site.responses, r.data ∈ data

end

section
variable {hash : List UInt8 → String} {data : List (List UInt8)} {site : Site}

theorem parseImage_ok {d : List UInt8} {image : PopupImage} (h : parseImage hash d = .ok image) :
    image.data = d ∧ image.hash = hash d := by
  unfold parseImage at h
  split at h
  · cases h
  · split at h
    · cases h
    · cases h
      exact ⟨rfl,rfl⟩

theorem parseUpload_ok {upload : Option (List UInt8)} {image : Option PopupImage}
    (h : parseUpload hash upload = .ok image) :
    ∀ i, image = some i → i.hash = hash i.data ∧ i.data ∈ upload.toList := by
  cases upload with
  | none =>
    cases h
    nofun
  | some d =>
    have hmap : (parseImage hash d).map some = .ok image := h
    cases hparse : parseImage hash d with
    | error e =>
      rw [hparse] at hmap
      cases hmap
    | ok i =>
      rw [hparse] at hmap
      cases hmap
      obtain ⟨hdata,hhash⟩ := parseImage_ok hparse
      intro i' hi'
      cases hi'
      rw [hhash,hdata]
      exact ⟨rfl,List.mem_singleton_self d⟩

theorem getImage_stored (h : From hash data site) {popupId : ℕ} {image : PopupImage}
    (himage : site.table.getImage popupId = some image) : image.hash = hash image.data ∧ image.data ∈ data := by
  obtain ⟨row,hrow,himage⟩ := Option.bind_eq_some_iff.mp himage
  exact h.stored row (List.mem_of_find?_eq_some hrow) image himage

theorem From.create (h : From hash data site) {content : PopupContent} {upload : Option (List UInt8)}
    {createdBy : String} {now : ℤ} {site' : Site} (hup : ∀ d ∈ upload.toList, d ∈ data)
    (hok : site.create hash content upload createdBy now = .ok site') :
    From hash data site' ∧ site'.responses = site.responses := by
  unfold Site.create at hok
  cases hparse : parseUpload hash upload with
  | error e =>
    rw [hparse] at hok
    cases hok
  | ok image =>
    rw [hparse] at hok
    cases hok
    refine ⟨⟨?_,h.answered⟩,rfl⟩
    intro row hrow i hi
    rcases List.mem_append.mp hrow with hrow | hrow
    · exact h.stored row hrow i hi
    · obtain rfl := List.mem_singleton.mp hrow
      obtain ⟨hhash,hmem⟩ := parseUpload_ok hparse i hi
      exact ⟨hhash,hup _ hmem⟩

theorem From.update (h : From hash data site) {popupId : ℕ} {content : PopupContent} {upload : Option (List UInt8)}
    {removeImage : Bool} {now : ℤ} {site' : Site} (hup : ∀ d ∈ upload.toList, d ∈ data)
    (hok : site.update hash popupId content upload removeImage now = .ok site') :
    From hash data site' ∧ site'.responses = site.responses := by
  unfold Site.update at hok
  cases hparse : parseUpload hash upload with
  | error e =>
    rw [hparse] at hok
    cases hok
  | ok image =>
    rw [hparse] at hok
    simp only [bind,Except.bind,PopupTable.update] at hok
    split at hok
    · cases hok
    · rename_i table htable
      split at htable
      · cases htable
        cases hok
        refine ⟨⟨?_,h.answered⟩,rfl⟩
        intro row hrow i hi
        obtain ⟨old,hold,rfl⟩ := List.mem_map.mp hrow
        split at hi
        · unfold PopupTable.updated at hi
          simp only at hi
          split at hi
          · obtain ⟨hhash,hmem⟩ := parseUpload_ok hparse i hi
            exact ⟨hhash,hup _ hmem⟩
          · exact h.stored old hold i hi
        · exact h.stored old hold i hi
      · cases htable

theorem From.delete (h : From hash data site) {popupId : ℕ} {site' : Site} (hok : site.delete popupId = .ok site') :
    From hash data site' ∧ site'.responses = site.responses := by
  unfold Site.delete PopupTable.delete at hok
  split at hok
  · cases hok
  · rename_i table htable
    split at htable
    · cases htable
      cases hok
      exact ⟨⟨fun row hrow => h.stored row (List.mem_filter.mp hrow).1,h.answered⟩,rfl⟩
    · cases htable

theorem From.popupImage (h : From hash data site) {popupId : ℕ} {v : String} {site' : Site}
    (hok : site.popupImage popupId v = .ok site') : ∃ image, site.table.getImage popupId = some image ∧
      From hash data site' ∧ site'.responses = ⟨popupId,v,image.data,image.contentType⟩ :: site.responses := by
  unfold Site.popupImage Site.getImage at hok
  cases himage : site.table.getImage popupId with
  | none =>
    rw [himage] at hok
    cases hok
  | some image =>
    rw [himage] at hok
    cases hok
    refine ⟨image,rfl,⟨h.stored,?_⟩,rfl⟩
    intro r hr
    rcases List.mem_cons.mp hr with rfl | hr
    · exact (getImage_stored h himage).2
    · exact h.answered r hr

/-- Every answer is of the hash its URL names. -/
def Named (hash : List UInt8 → String) (responses : List ImageResponse) : Prop := ∀ r ∈ responses, hash r.data = r.v

theorem After.unchanged {request : Request} {e : PopupError} (h : site.answers hash request = .error e) :
    site.after hash request = site := by
  unfold Site.after
  rw [h]
  rfl

theorem After.changed {request : Request} {site' : Site} (h : site.answers hash request = .ok site') :
    site.after hash request = site' := by
  unfold Site.after
  rw [h]
  rfl

/-- One request: what is stored stays in order, and the answers stay named just where the image is current. -/
theorem From.after (h : From hash data site) {request : Request} (hup : ∀ d ∈ uploads [request], d ∈ data) :
    From hash data (site.after hash request) ∧
      (Named hash (site.after hash request).responses ↔ Named hash site.responses ∧ Current site request) := by
  cases hanswers : site.answers hash request with
  | error e =>
    rw [After.unchanged hanswers]
    refine ⟨h,⟨fun hnamed => ⟨hnamed,?_⟩,fun hboth => hboth.1⟩⟩
    cases request with
    | image popupId v =>
      intro image himage
      have hfound : site.popupImage popupId v = .error e := hanswers
      unfold Site.popupImage Site.getImage at hfound
      rw [himage] at hfound
      cases hfound
    | _ => trivial
  | ok site' =>
    rw [After.changed hanswers]
    have hkeeps (hrest : From hash data site' ∧ site'.responses = site.responses) (hcurrent : Current site request) :
        From hash data site' ∧ (Named hash site'.responses ↔ Named hash site.responses ∧ Current site request) := by
      rw [hrest.2]
      exact ⟨hrest.1,⟨fun hnamed => ⟨hnamed,hcurrent⟩,fun hboth => hboth.1⟩⟩
    cases request with
    | create content upload createdBy now =>
      have hup : ∀ d ∈ upload.toList, d ∈ data := fun d hd => hup d (by simpa [uploads] using hd)
      exact hkeeps (h.create hup hanswers) trivial
    | update popupId content upload removeImage now =>
      have hup : ∀ d ∈ upload.toList, d ∈ data := fun d hd => hup d (by simpa [uploads] using hd)
      exact hkeeps (h.update hup hanswers) trivial
    | delete popupId => exact hkeeps (h.delete hanswers) trivial
    | active =>
      cases hanswers
      exact hkeeps ⟨⟨h.stored,h.answered⟩,rfl⟩ trivial
    | expire =>
      cases hanswers
      exact hkeeps ⟨⟨h.stored,h.answered⟩,rfl⟩ trivial
    | image popupId v =>
      obtain ⟨image,himage,hfrom,hresponses⟩ := h.popupImage hanswers
      refine ⟨hfrom,?_⟩
      have hhash := (getImage_stored h himage).1
      rw [hresponses]
      unfold Named
      rw [List.forall_mem_cons,and_comm]
      apply and_congr_right'
      constructor
      · intro hv found hfound
        rw [himage] at hfound
        cases hfound
        rw [hhash,hv]
      · intro hcurrent
        rw [← hhash,hcurrent image himage]

theorem From.run {requests : List Request} (h : From hash data site) (hup : ∀ d ∈ uploads requests, d ∈ data) :
    From hash data (site.run hash requests) ∧
      (Named hash (site.run hash requests).responses ↔ Named hash site.responses ∧ AllCurrent hash site requests) := by
  induction requests generalizing site with
  | nil => exact ⟨h,(and_iff_left trivial).symm⟩
  | cons request requests ih =>
    have hfirst : ∀ d ∈ uploads [request], d ∈ data := by
      intro d hd
      apply hup
      unfold uploads at hd ⊢
      rw [List.flatMap_cons] at hd ⊢
      exact List.mem_append_left _ (by simpa using hd)
    have hrest : ∀ d ∈ uploads requests, d ∈ data := by
      intro d hd
      apply hup
      unfold uploads
      rw [List.flatMap_cons]
      exact List.mem_append_right _ hd
    obtain ⟨hafter,hnamed⟩ := h.after hfirst
    obtain ⟨hrun,hall⟩ := ih hafter hrest
    have hstep : site.run hash (request :: requests) = (site.after hash request).run hash requests := rfl
    rw [hstep]
    refine ⟨hrun,hall.trans ?_⟩
    rw [hnamed,and_assoc]
    rfl

/-- Where different uploads have different hashes, a run's answers are immutable just where each image
asked for is the one its URL names. -/
theorem images_immutable_iff (hash : List UInt8 → String) (requests : List Request)
    (hinj : ∀ d ∈ uploads requests, ∀ d' ∈ uploads requests, hash d = hash d' → d = d') :
    Immutable hash (Site.empty.run hash requests).responses ↔ AllCurrent hash .empty requests := by
  have hempty : From hash (uploads requests) .empty := ⟨nofun,nofun⟩
  obtain ⟨hfrom,hnamed⟩ := hempty.run fun d hd => hd
  have hall : Named hash (Site.empty.run hash requests).responses ↔ AllCurrent hash .empty requests :=
    hnamed.trans (and_iff_right nofun)
  rw [← hall]
  constructor
  · exact fun himmutable r hr => (himmutable r hr).1
  · intro hnamed r hr
    refine ⟨hnamed r hr,fun r' hr' _ hv => ?_⟩
    apply hinj r'.data (hfrom.answered r' hr') r.data (hfrom.answered r hr)
    rw [hnamed r hr,hnamed r' hr',hv]

end

/-! ## An image replaced -/

def png : List UInt8 := [137,80,78,71,13,10,26,10,1]

def jpeg : List UInt8 := [255,216,255]

def sampleHash (data : List UInt8) : String := if data = png then "275f1bcbbb585c71" else "6e568e1f67fba258"

def notice : PopupContent := ⟨"notice","",false,false,true⟩

def replacing : List Request := [.create notice (some png) "admin" 0,.active,.update 1 notice (some jpeg) false 1]

/-- A visitor asks for the image that was listed, and gets the new one for the old URL. -/
theorem replaced_image_served :
    "popups/1/image?v=275f1bcbbb585c71" ∈ (Site.empty.run sampleHash replacing).given ∧
    ¬ Immutable sampleHash
      (Site.empty.run sampleHash (replacing ++ [.image 1 "275f1bcbbb585c71"])).responses := by
  unfold Immutable
  decide +kernel

/-- Each image is asked for while it is the current one. -/
def asking : List Request :=
  [.create notice (some png) "admin" 0,.active,.image 1 "275f1bcbbb585c71",.update 1 notice (some jpeg) false 1,.active,
    .image 1 "6e568e1f67fba258"]

theorem listed_image_served :
    (Site.empty.run sampleHash asking).responses.map (·.data) = [jpeg,png] ∧
      Immutable sampleHash (Site.empty.run sampleHash asking).responses := by
  have hinj : ∀ d ∈ uploads asking, ∀ d' ∈ uploads asking, sampleHash d = sampleHash d' → d = d' := by decide
  have hlisted : (Site.empty.run sampleHash (asking.take 2)).table.getImage 1 =
      some ⟨png,"image/png","275f1bcbbb585c71"⟩ := by decide
  have hreplaced : (Site.empty.run sampleHash (asking.take 5)).table.getImage 1 =
      some ⟨jpeg,"image/jpeg","6e568e1f67fba258"⟩ := by decide
  refine ⟨by decide,(images_immutable_iff sampleHash _ hinj).mpr ⟨trivial,trivial,?_,trivial,trivial,?_,trivial⟩⟩
  · intro image himage
    obtain rfl := Option.some.inj (himage.symm.trans hlisted)
    rfl
  · intro image himage
    obtain rfl := Option.some.inj (himage.symm.trans hreplaced)
    rfl

end Tag2now.Popups
