import Mathlib.Algebra.Order.Ring.Int
import Mathlib.Data.List.Basic
import Mathlib.Logic.Function.Basic
import Tag2now.Auth.Tokens
import Tag2now.Machines.Guarded

/-! # Sessions

Logins and requests while RPCN changes accounts and the site is restarted with other settings.
A login has its answer from RPCN before it signs it. No request comes with a token that fits
the secret and was not issued under it.
-/
namespace Tag2now.Auth
open Guarded

/-- An account as RPCN has it, and since when. -/
structure Account where
  verified : VerifiedAccount
  since : ℤ

/-- A token given out, for what RPCN answered when. -/
structure Issued (τ : Type) where
  token : τ
  account : VerifiedAccount
  checkedAt : ℤ
  issuedAt : ℤ
  settings : TokenSettings

/-- A request that was answered, and the accounts as they were then. -/
structure Served (τ : Type) where
  credentials : Option τ
  servedAt : ℤ
  settings : TokenSettings
  accounts : String → Option Account
  result : Except AuthError AuthUser

structure State (τ : Type) where
  now : ℤ
  settings : TokenSettings
  accounts : String → Option Account
  /-- The logins that have RPCN's answer. -/
  logins : ℕ → Option (VerifiedAccount × ℤ)
  issued : List (Issued τ)
  served : List (Served τ)

inductive Action (τ : Type)
  | tick (later : ℤ)
  | restart (settings : TokenSettings)
  | change (account : VerifiedAccount)
  | verify (login : ℕ) (username : String)
  | issue (login : ℕ)
  | request (credentials : Option τ)

section
variable {τ : Type} (jwt : Jwt τ)

def step (s : State τ) : Action τ → Option (State τ)
  | .tick later => if s.now ≤ later then some { s with now := later } else none
  | .restart settings => some { s with settings, logins := fun _ => none }
  | .change account => some { s with accounts := Function.update s.accounts account.username (some ⟨account,s.now⟩) }
  | .verify login username =>
    match s.logins login,s.accounts username with
    | none,some account => some { s with logins := Function.update s.logins login (some (account.verified,s.now)) }
    | _,_ => none
  | .issue login =>
    match s.logins login with
    | none => none
    | some (account,checkedAt) =>
      let done := { s with logins := Function.update s.logins login none }
      match AuthService.login jwt s.settings s.now (.ok account) with
      | .error _ => some done
      | .ok (token,_) => some { done with issued := ⟨token,account,checkedAt,s.now,s.settings⟩ :: s.issued }
  | .request credentials => some { s with
      served := ⟨credentials,s.now,s.settings,s.accounts,currentUser jwt s.settings s.now credentials⟩ :: s.served }

def sessions (settings : TokenSettings) : Machine (State τ) (Action τ) :=
  ⟨⟨0,settings,fun _ => none,fun _ => none,[],[]⟩,step jwt⟩

/-- A token that fits the secret is one that was issued under it. -/
def Unforged (s : State τ) : Action τ → Prop
  | .request (some token) => jwt.verified token s.settings.jwtSecret ≠ none →
      ∃ i ∈ s.issued, i.token = token ∧ i.settings.jwtSecret = s.settings.jwtSecret
  | _ => True

end

section
variable {τ : Type}

/-- The end of a token's life, a whole second. -/
def Issued.expiresAt (i : Issued τ) : ℤ := numericDate (i.issuedAt + i.settings.jwtTtlSeconds * second) * second

/-- What the token says of the account is what RPCN says now, or was before it changed. -/
def Fresh (accounts : String → Option Account) (account : VerifiedAccount) (checkedAt : ℤ) : Prop :=
  ∀ a, accounts account.username = some a → account = a.verified ∨ checkedAt ≤ a.since

/-- The login behind an accepted request. -/
structure Behind (r : Served τ) (user : AuthUser) (i : Issued τ) : Prop where
  token : r.credentials = some i.token
  user : user = AuthUser.of i.account
  allowed : i.account.banned = false
  secret : i.settings.jwtSecret = r.settings.jwtSecret
  order : i.checkedAt ≤ i.issuedAt ∧ i.issuedAt ≤ r.servedAt
  alive : r.servedAt < i.issuedAt + i.settings.jwtTtlSeconds * second
  fresh : Fresh r.accounts i.account i.checkedAt

/-- A request is accepted on a login of the user's, and every token is good for the whole of its life. -/
structure Right (issued : List (Issued τ)) (r : Served τ) : Prop where
  accepted : ∀ user, r.result = .ok user → ∃ i ∈ issued, Behind r user i
  good : ∀ i ∈ issued, r.credentials = some i.token → i.settings.jwtSecret = r.settings.jwtSecret →
    i.issuedAt ≤ r.servedAt →
    r.result = if r.servedAt < i.expiresAt then .ok (AuthUser.of i.account) else .error expired

end

/-! ## Every run -/
section
variable {τ : Type} {jwt : Jwt τ}

structure IssuedOk (jwt : Jwt τ) (s : State τ) (i : Issued τ) : Prop where
  order : i.checkedAt ≤ i.issuedAt ∧ i.issuedAt ≤ s.now
  allowed : i.account.banned = false
  key : minSecretBytes ≤ i.settings.jwtSecret.utf8ByteSize
  token : i.token =
    jwt.encode (claimsOf (AuthUser.of i.account) i.issuedAt i.settings.jwtTtlSeconds) i.settings.jwtSecret
  fresh : Fresh s.accounts i.account i.checkedAt

structure Kept (jwt : Jwt τ) (s : State τ) : Prop where
  since : ∀ username a, s.accounts username = some a → a.verified.username = username ∧ a.since ≤ s.now
  logins : ∀ login account checkedAt, s.logins login = some (account,checkedAt) →
    checkedAt ≤ s.now ∧ Fresh s.accounts account checkedAt
  issued : ∀ i ∈ s.issued, IssuedOk jwt s i
  served : ∀ r ∈ s.served, r.result = currentUser jwt r.settings r.servedAt r.credentials ∧
    ∀ user, r.result = .ok user → ∃ i ∈ s.issued, Behind r user i

/-- An account that changes now leaves what was checked before. -/
theorem fresh_change {accounts : String → Option Account} {account changed : VerifiedAccount} {checkedAt now : ℤ}
    (h : Fresh accounts account checkedAt) (hnow : checkedAt ≤ now) :
    Fresh (Function.update accounts changed.username (some ⟨changed,now⟩)) account checkedAt := by
  intro a ha
  by_cases hname : account.username = changed.username
  · rw [hname,Function.update_self] at ha
    rw [← Option.some.inj ha]
    exact .inr hnow
  · rw [Function.update_of_ne hname] at ha
    exact h a ha

theorem IssuedOk.verified (hjwt : jwt.ReadsBack) {s : State τ} {i : Issued τ} (h : IssuedOk jwt s i) :
    jwt.verified i.token i.settings.jwtSecret =
      some (claimsOf (AuthUser.of i.account) i.issuedAt i.settings.jwtTtlSeconds) := by
  rw [h.token]
  exact hjwt _ _

/-- A token issued under the present secret is read as its user until it expires. -/
theorem IssuedOk.read (hjwt : jwt.ReadsBack) {s : State τ} {i : Issued τ} (h : IssuedOk jwt s i)
    {settings : TokenSettings} (hsecret : i.settings.jwtSecret = settings.jwtSecret)
    {now : ℤ} (hnow : i.issuedAt ≤ now) :
    readToken jwt settings now i.token =
      if now < i.expiresAt then .ok (AuthUser.of i.account) else .error expired := by
  have hverified := h.verified hjwt
  rw [hsecret] at hverified
  have hiat : numericDate i.issuedAt * second ≤ now := (numericDate_le _).trans hnow
  rw [readToken_verified (hsecret ▸ h.key) hverified hiat rfl,user_claimsOf]
  rfl

theorem Kept.request (hjwt : jwt.ReadsBack) {s : State τ} (h : Kept jwt s) {credentials : Option τ}
    (hunforged : Unforged jwt s (.request credentials)) {user : AuthUser}
    (hok : currentUser jwt s.settings s.now credentials = .ok user) :
    ∃ i ∈ s.issued, Behind ⟨credentials,s.now,s.settings,s.accounts,.ok user⟩ user i := by
  cases credentials with
  | none => cases hok
  | some token =>
    obtain ⟨claims,hverified,-,-⟩ := readToken_ok hok
    obtain ⟨i,hi,rfl,hsecret⟩ := hunforged (by simp [hverified])
    have hissued : IssuedOk jwt s i := h.issued i hi
    have hread := hissued.read hjwt hsecret hissued.order.2
    have halive : s.now < i.expiresAt := by
      by_contra hdead
      rw [if_neg hdead] at hread
      have hboth : Except.error expired = Except.ok user := hread.symm.trans hok
      cases hboth
    rw [if_pos halive] at hread
    have huser : AuthUser.of i.account = user := Except.ok.inj (hread.symm.trans hok)
    exact ⟨i,hi,rfl,huser.symm,hissued.allowed,hsecret,hissued.order,
      halive.trans_le (numericDate_le _),hissued.fresh⟩

theorem Kept.later {s : State τ} (h : Kept jwt s) {later : ℤ} (hlater : s.now ≤ later) :
    Kept jwt { s with now := later } where
  since username a ha := ⟨(h.since username a ha).1,(h.since username a ha).2.trans hlater⟩
  logins login account checkedAt hlogin :=
    ⟨(h.logins login account checkedAt hlogin).1.trans hlater,(h.logins login account checkedAt hlogin).2⟩
  issued i hi :=
    ⟨⟨(h.issued i hi).order.1,(h.issued i hi).order.2.trans hlater⟩,(h.issued i hi).allowed,(h.issued i hi).key,
      (h.issued i hi).token,(h.issued i hi).fresh⟩
  served := h.served

theorem Kept.change {s : State τ} (h : Kept jwt s) (account : VerifiedAccount) :
    Kept jwt { s with accounts := Function.update s.accounts account.username (some ⟨account,s.now⟩) } where
  since username a ha := by
    dsimp only at ha
    by_cases hname : username = account.username
    · rw [hname,Function.update_self] at ha
      rw [← Option.some.inj ha]
      exact ⟨hname.symm,le_refl s.now⟩
    · rw [Function.update_of_ne hname] at ha
      exact h.since username a ha
  logins login verified checkedAt hlogin := by
    obtain ⟨hnow,hfresh⟩ := h.logins login verified checkedAt hlogin
    exact ⟨hnow,fresh_change hfresh hnow⟩
  issued i hi := by
    obtain ⟨horder,hallowed,hkey,htoken,hfresh⟩ := h.issued i hi
    exact ⟨horder,hallowed,hkey,htoken,fresh_change hfresh (horder.1.trans horder.2)⟩
  served := h.served

theorem Kept.step (hjwt : jwt.ReadsBack) {s s' : State τ} {a : Action τ} (h : Kept jwt s) (hunforged : Unforged jwt s a)
    (hstep : step jwt s a = some s') : Kept jwt s' := by
  cases a with
  | tick later =>
    simp only [Auth.step] at hstep
    split at hstep
    · cases hstep
      exact h.later (by assumption)
    · cases hstep
  | restart settings =>
    cases hstep
    exact ⟨h.since,(fun _ _ _ hlogin => by cases hlogin),
      fun i hi => ⟨(h.issued i hi).order,(h.issued i hi).allowed,(h.issued i hi).key,(h.issued i hi).token,
        (h.issued i hi).fresh⟩,h.served⟩
  | change account =>
    cases hstep
    exact h.change account
  | verify login username =>
    simp only [Auth.step] at hstep
    split at hstep
    · rename_i account hfree haccount
      cases hstep
      refine { h with logins := fun k found checkedAt hlogin => ?_, issued := ?_ }
      · dsimp only at hlogin
        by_cases hk : k = login
        · rw [hk,Function.update_self] at hlogin
          obtain ⟨rfl,rfl⟩ := Prod.mk.inj (Option.some.inj hlogin)
          refine ⟨le_refl s.now,fun a ha => .inl ?_⟩
          rw [(h.since username account haccount).1,haccount] at ha
          rw [← Option.some.inj ha]
        · rw [Function.update_of_ne hk] at hlogin
          exact h.logins k found checkedAt hlogin
      · intro i hi
        obtain ⟨horder,hallowed,hkey,htoken,hfresh⟩ := h.issued i hi
        exact ⟨horder,hallowed,hkey,htoken,hfresh⟩
    · cases hstep
  | issue login =>
    simp only [Auth.step] at hstep
    split at hstep
    · cases hstep
    · rename_i account checkedAt hlogin
      obtain ⟨hchecked,hfresh⟩ := h.logins login account checkedAt hlogin
      have hdone : ∀ k found at', Function.update s.logins login none k = some (found,at') →
          at' ≤ s.now ∧ Fresh s.accounts found at' := by
        intro k found at' hk
        by_cases hsame : k = login
        · rw [hsame,Function.update_self] at hk
          cases hk
        · rw [Function.update_of_ne hsame] at hk
          exact h.logins k found at' hk
      have hold {i : Issued τ} (hi : i ∈ s.issued) {t : State τ} (hnow : t.now = s.now)
          (hacc : t.accounts = s.accounts) :
          IssuedOk jwt t i := by
        obtain ⟨horder,hallowed,hkey,htoken,hfresh⟩ := h.issued i hi
        exact ⟨hnow ▸ horder,hallowed,hkey,htoken,hacc ▸ hfresh⟩
      split at hstep
      · cases hstep
        exact ⟨h.since,hdone,fun i hi => hold hi rfl rfl,h.served⟩
      · rename_i token _ hok
        cases hstep
        obtain ⟨found,hfound,hallowed,huser,-,hkey,htoken⟩ := login_ok hok
        cases hfound
        rw [huser] at htoken
        refine ⟨h.since,hdone,?_,?_⟩
        · intro i hi
          rcases List.mem_cons.mp hi with rfl | hi
          · exact ⟨⟨hchecked,le_refl s.now⟩,hallowed,hkey,htoken,hfresh⟩
          · exact hold hi rfl rfl
        · intro r hr
          obtain ⟨hresult,hbehind⟩ := h.served r hr
          refine ⟨hresult,fun user huser => ?_⟩
          obtain ⟨i,hi,hbehind⟩ := hbehind user huser
          exact ⟨i,List.mem_cons_of_mem _ hi,hbehind⟩
  | request credentials =>
    cases hstep
    refine ⟨h.since,h.logins,?_,?_⟩
    · intro i hi
      obtain ⟨horder,hallowed,hkey,htoken,hfresh⟩ := h.issued i hi
      exact ⟨horder,hallowed,hkey,htoken,hfresh⟩
    · intro r hr
      rcases List.mem_cons.mp hr with rfl | hr
      · refine ⟨rfl,fun user huser => ?_⟩
        obtain ⟨i,hi,htoken,hof,hallowed,hsecret,horder,halive,hfresh⟩ := h.request hjwt hunforged huser
        exact ⟨i,hi,htoken,hof,hallowed,hsecret,horder,halive,hfresh⟩
      · exact h.served r hr

theorem kept_start (jwt : Jwt τ) (settings : TokenSettings) : Kept jwt (sessions jwt settings).start where
  since _ _ ha := by cases ha
  logins _ _ _ hlogin := by cases hlogin
  issued _ hi := by cases hi
  served _ hr := by cases hr

theorem reachable_kept (hjwt : jwt.ReadsBack) {settings : TokenSettings} {s : State τ}
    (h : (sessions jwt settings).Reachable (Unforged jwt) s) : Kept jwt s :=
  h.invariant (kept_start jwt settings) fun hkept hunforged hstep => hkept.step hjwt hunforged hstep

end

/-- Every request that was accepted had a login of that user behind it, of no banned account and not longer ago than a
token lives, and what the token says of the account was so until after that login. A token is good
for all of its life. -/
theorem tokens_right {τ : Type} {jwt : Jwt τ} (hjwt : jwt.ReadsBack) {settings : TokenSettings} {s : State τ}
    (h : (sessions jwt settings).Reachable (Unforged jwt) s) : ∀ r ∈ s.served, Right s.issued r := by
  have hkept : Kept jwt s := reachable_kept hjwt h
  intro r hr
  obtain ⟨hresult,hbehind⟩ := hkept.served r hr
  refine ⟨hbehind,?_⟩
  intro i hi htoken hsecret hnow
  rw [hresult,htoken]
  exact (hkept.issued i hi).read hjwt hsecret hnow

/-! Alice is banned after her login, and her token is good until it expires. -/

/-- A token that is its claims and its key. -/
def pairs : Jwt (Claims × String) :=
  ⟨fun claims key => (claims,key),fun token key => if token.2 = key then some token.1 else none⟩

theorem pairs_readsBack : pairs.ReadsBack := fun _ _ => if_pos rfl

def aWeek : TokenSettings := ⟨"0123456789abcdef0123456789abcdef",7 * 24 * 3600⟩

def aliceAccount : VerifiedAccount := ⟨"alice","","",true,false⟩

def aliceToken : Claims × String := (claimsOf (AuthUser.of aliceAccount) 0 aWeek.jwtTtlSeconds,aWeek.jwtSecret)

def aliceServed : State (Claims × String) :=
  ((sessions pairs aWeek).run (sessions pairs aWeek).start [.change aliceAccount,.verify 0 "alice",.issue 0,
    .change { aliceAccount with banned := true },.tick day,.request (some aliceToken)]).getD
      (sessions pairs aWeek).start

theorem reachable_aliceServed : (sessions pairs aWeek).Reachable (Unforged pairs) aliceServed := by
  have hstart : (sessions pairs aWeek).Reachable (Unforged pairs) (sessions pairs aWeek).start := .start
  have hknown := hstart.step (show Unforged pairs _ (.change aliceAccount) from trivial) rfl
  have hchecked := hknown.step (show Unforged pairs _ (.verify 0 "alice") from trivial) rfl
  have hissued := hchecked.step (show Unforged pairs _ (.issue 0) from trivial) rfl
  have hbanned := hissued.step (show Unforged pairs _ (.change { aliceAccount with banned := true }) from trivial) rfl
  have hlater := hbanned.step (show Unforged pairs _ (.tick day) from trivial) rfl
  exact hlater.step (show Unforged pairs _ (.request (some aliceToken)) from
    fun _ => ⟨_,List.mem_cons_self,rfl,rfl⟩) rfl

theorem tokens_right_alice : ∃ r ∈ aliceServed.served, r.result = .ok ⟨"alice","alice","",true⟩ ∧
    ∃ i ∈ aliceServed.issued, i.account.banned = false ∧ r.servedAt < i.issuedAt + 7 * day := by
  refine ⟨_,List.mem_cons_self,?_⟩
  have hright := tokens_right pairs_readsBack reachable_aliceServed _ List.mem_cons_self
  have hresult := hright.good _ List.mem_cons_self rfl rfl (by decide)
  rw [if_pos (by decide)] at hresult
  obtain ⟨i,hi,hbehind⟩ := hright.accepted _ hresult
  refine ⟨hresult,i,hi,hbehind.allowed,?_⟩
  obtain rfl := List.mem_singleton.mp hi
  exact hbehind.alive

end Tag2now.Auth
