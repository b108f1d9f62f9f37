import Mathlib
import Waterbox.Lib.Runs
import Waterbox.Portal.Households

namespace Waterbox

namespace Portal

/-!
# Where a browser comes to rest

Two checks decide about a page.  The middleware sends a browser with a cookie away from the login
page and one without away from the app; it does not look at what the cookie is.  The app page asks
for the meters of the session, and where the route does not accept its token, sends the browser to
the login page.

* `middleware`, `getSession`, `metersRoute`, `loadMeters` — the checks.
* `redirect` — where a page sends the browser.
* `redirect_blank`, `redirect_present` — without a cookie, and with one.
* `arrives_iff` — which of them come to rest at the right page.
-/

open Cloud Runs

/-- What the pages get from `jose` while the browser is on its way, and from the driver of the
    database.  `V` are the values of claims. -/
structure Jose (V N : Type) where
  /-- The claims `userId` and `email` of a token; `none` where `jwtVerify` throws, as for a token
      that is malformed, that was signed with another secret or that has expired. -/
  jwtVerify : Str → Str → Option (V × V)
  /-- `Number(value)`, and `String(value || "")`. -/
  number : V → N
  text : V → Str
  /-- The `INTEGER` that a number is as a parameter. -/
  integer : N → Option Nat

/-! ### The middleware -/

def loginPage : Str := "/".toList

def registerPage : Str := "/register".toList

def appPage : Str := "/app".toList

/-- `!value` of a cookie. -/
def absent (cookie : Option Str) : Bool := cookie.all (·.isEmpty)

/-- `matcher: ["/", "/register", "/app/:path*"]`. -/
def matcher (path : Str) : Bool :=
  path = loginPage || path = registerPage || path = appPage || (appPage ++ ['/']).isPrefixOf path

/-- `middleware(req)`: where a request is redirected, if it is. -/
def middleware (cookie : Option Str) (path : Str) : Option Str :=
  let protectedPath := appPage.isPrefixOf path
  if protectedPath && absent cookie then some loginPage
  -- any text counts as a session
  else if (path = loginPage || path = registerPage) && !absent cookie then some appPage
  else none

theorem login_ne_app : loginPage ≠ appPage := by decide

theorem register_ne_app : registerPage ≠ appPage := by decide

/-- The middleware on the three pages. -/
theorem middleware_pages (cookie : Option Str) :
    (if matcher loginPage then middleware cookie loginPage else none) =
        (if absent cookie then none else some appPage) ∧
    (if matcher registerPage then middleware cookie registerPage else none) =
        (if absent cookie then none else some appPage) ∧
    (if matcher appPage then middleware cookie appPage else none) =
        (if absent cookie then some loginPage else none) := by
  unfold middleware
  generalize absent cookie = blank
  revert blank
  decide +kernel

section Browser

variable {V N T : Type} [DecidableEq N] [LinearOrder T] [JsMath N] (jose : Jose V N)
  (authSecret : Option Str)

/-! ### The session -/

/-- `process.env.AUTH_SECRET || "dev-only-change-me"`. -/
def secret : Str :=
  match authSecret with
  | some (c :: cs) => c :: cs
  | _ => "dev-only-change-me".toList

/-- `getSession()`. -/
def getSession (cookie : Option Str) : Option (N × Str) :=
  match cookie with
  | none => none
  | some token =>
    if token.isEmpty then none
    else
      match jose.jwtVerify token (secret authSecret) with
      | none => none
      | some (userId, email) =>
        let userId := jose.number userId
        let email := jose.text email
        if JsNumber.falsy userId || email.isEmpty then none else some (userId, email)

variable (clock : Clock T) (plan : Plan N) (db : PortalDb N)

/-- `GET` of `/api/meters`. -/
def metersRoute (cookie : Option Str) : Response T N :=
  match getSession jose authSecret cookie with
  | none => (respond clock plan db none .meters).1
  | some (userId, email) =>
    match jose.integer userId with
    -- the query fails
    | none => .thrown
    | some userId => (respond clock plan db (some ⟨userId, email⟩) .meters).1

/-- `loadMeters()` of the app page: where it sends the browser, if it does. -/
def loadMeters (res : Response T N) : Option Str :=
  match res with
  | .error _ status => if status = 401 then some loginPage else none
  | _ => none

/-- Where a page sends the browser: the middleware before it is shown, the app page after that. -/
def redirect (cookie : Option Str) (path : Str) : Option Str :=
  match if matcher path then middleware cookie path else none with
  | some target => some target
  | none =>
    if path = appPage then loadMeters (metersRoute jose authSecret clock plan db cookie) else none

/-! ### Three kinds of cookies -/

omit [DecidableEq N] [LinearOrder T] in
theorem getSession_absent {cookie : Option Str} (h : absent cookie = true) :
    getSession jose authSecret cookie = none := by
  cases cookie with
  | none => rfl
  | some token =>
    rw [getSession]
    exact if_pos h

/-- Where the route sends the browser. -/
theorem loadMeters_metersRoute (cookie : Option Str) :
    loadMeters (metersRoute jose authSecret clock plan db cookie) =
      if (getSession jose authSecret cookie).isSome then none else some loginPage := by
  unfold metersRoute
  cases getSession jose authSecret cookie with
  | none => rfl
  | some session => cases hid : jose.integer session.1 <;> simp only [hid] <;> rfl

variable {cookie : Option Str}

/-- Without a cookie the login page and the register page stay. -/
theorem redirect_blank (h : absent cookie = true) :
    redirect jose authSecret clock plan db cookie loginPage = none ∧
    redirect jose authSecret clock plan db cookie registerPage = none ∧
    redirect jose authSecret clock plan db cookie appPage = some loginPage := by
  obtain ⟨hlogin, hregister, happ⟩ := middleware_pages cookie
  rw [h] at hlogin hregister happ
  refine ⟨?_, ?_, ?_⟩
  · rw [redirect, hlogin]
    exact if_neg login_ne_app
  · rw [redirect, hregister]
    exact if_neg register_ne_app
  · rw [redirect, happ]
    rfl

/-- With any cookie the two pages lead to the app, and the app asks the route. -/
theorem redirect_present (h : absent cookie = false) :
    redirect jose authSecret clock plan db cookie loginPage = some appPage ∧
    redirect jose authSecret clock plan db cookie registerPage = some appPage ∧
    redirect jose authSecret clock plan db cookie appPage =
      if (getSession jose authSecret cookie).isSome then none else some loginPage := by
  obtain ⟨hlogin, hregister, happ⟩ := middleware_pages cookie
  rw [h] at hlogin hregister happ
  refine ⟨?_, ?_, ?_⟩
  · rw [redirect, hlogin]
    rfl
  · rw [redirect, hregister]
    rfl
  · rw [redirect, happ, ← loadMeters_metersRoute jose authSecret clock plan db]
    exact if_pos rfl

/-! ### Rest -/

/-- The page that belongs to a cookie. -/
def RightPage (cookie : Option Str) (path : Str) : Prop :=
  if (getSession jose authSecret cookie).isSome then path = appPage
  else path = loginPage ∨ path = registerPage

/-- From each page, the browser comes to rest at the page that belongs to its cookie if and only if
    there is no cookie, or an empty one, or `getSession` accepts it. -/
theorem arrives_iff {start : Str} (hstart : start ∈ [loginPage, registerPage, appPage]) :
    (∃ path, Settles (redirect jose authSecret clock plan db cookie) start path ∧
      RightPage jose authSecret cookie path) ↔
      absent cookie = true ∨ (getSession jose authSecret cookie).isSome := by
  simp only [List.mem_cons, List.not_mem_nil, or_false] at hstart
  by_cases hcookie : absent cookie = true
  · -- the login page and the register page stay, and the app leads to the login page
    refine iff_of_true ?_ (.inl hcookie)
    obtain ⟨hlogin, hregister, happ⟩ := redirect_blank jose authSecret clock plan db hcookie
    have hright : ∀ path, path = loginPage ∨ path = registerPage →
        RightPage jose authSecret cookie path := by
      intro path hpath
      rw [RightPage, getSession_absent jose authSecret hcookie]
      exact hpath
    rcases hstart with rfl | rfl | rfl
    · exact ⟨loginPage, .rest hlogin, hright _ (.inl rfl)⟩
    · exact ⟨registerPage, .rest hregister, hright _ (.inr rfl)⟩
    · exact ⟨loginPage, .head happ (.rest hlogin), hright _ (.inl rfl)⟩
  · rw [Bool.not_eq_true] at hcookie
    obtain ⟨hlogin, hregister, happ⟩ := redirect_present jose authSecret clock plan db hcookie
    by_cases hsession : (getSession jose authSecret cookie).isSome
    · -- the app stays, and the other two lead to it
      refine iff_of_true ⟨appPage, ?_, by rw [RightPage, if_pos hsession]⟩ (.inr hsession)
      rw [if_pos hsession] at happ
      rcases hstart with rfl | rfl | rfl
      · exact .head hlogin (.rest happ)
      · exact .head hregister (.rest happ)
      · exact .rest happ
    · -- the app leads to the login page, and that back to the app
      refine iff_of_false ?_ (by simp [hcookie, hsession])
      rintro ⟨path, hsettles, -⟩
      rw [if_neg hsession] at happ
      -- the three pages lead to each other, and none of them stays
      refine not_settles (S := {loginPage, registerPage, appPage}) ?_ ?_ path hsettles
      · rintro page (rfl | rfl | rfl)
        · exact ⟨appPage, by simp, hlogin⟩
        · exact ⟨appPage, by simp, hregister⟩
        · exact ⟨loginPage, by simp, happ⟩
      · exact hstart

end Browser

/-! ### A token -/

/-- The session of the first household, as `setSession` signs it with the default secret. -/
def anaToken : Str :=
  ("eyJhbGciOiJIUzI1NiJ9.eyJ1c2VySWQiOjEsImVtYWlsIjoiYW5hQGhvbWUuZ3QiLCJpYXQiOjE3Njg1MDAwMDAsImV4" ++
    "cCI6MTc2OTEwNDgwMH0.bRIrZSUmktuiUEz6W3QIPp_NSj4tJIWrD_oT9YvxDvw").toList

/-- A moment at which that token is good. -/
def anaJose : Jose (Json Exact) Exact where
  jwtVerify token secret :=
    if token = anaToken ∧ secret = "dev-only-change-me".toList then
      some (.int 1, .str "ana@home.gt".toList)
    else none
  number
    | .int n => .finite n
    | _ => .nan
  text
    | .str s => s
    | _ => []
  integer
    | .finite q => if q.den = 1 ∧ 0 ≤ q.num then some q.num.toNat else none
    | _ => none

def anaHome : PortalDb Exact := registered (noAccounts noMeters) [first]

/-- With the token the login page leads to the app. -/
theorem arrives_ana :
    ∃ path, Settles (redirect anaJose none clock ⟨.id, .id, .id⟩ anaHome (some anaToken)) loginPage
        path ∧ RightPage anaJose none (some anaToken) path :=
  (arrives_iff anaJose none clock ⟨.id, .id, .id⟩ anaHome List.mem_cons_self).2
    (.inr (by decide +kernel))

/-- A token that has been cut off leads from the login page to the app and back, for ever. -/
theorem stale_cookie_loops :
    let cookie := some (anaToken.take 100)
    getSession anaJose none cookie = none ∧
    redirect anaJose none clock ⟨.id, .id, .id⟩ anaHome cookie loginPage = some appPage ∧
    redirect anaJose none clock ⟨.id, .id, .id⟩ anaHome cookie appPage = some loginPage ∧
    ∀ path, ¬ Settles (redirect anaJose none clock ⟨.id, .id, .id⟩ anaHome cookie)
      loginPage path := by
  intro cookie
  have hsession : getSession anaJose none cookie = none := by decide +kernel
  have hpresent : absent cookie = false := by decide +kernel
  obtain ⟨hlogin, -, happ⟩ := redirect_present anaJose none clock ⟨.id, .id, .id⟩ anaHome hpresent
  rw [hsession] at happ
  refine ⟨hsession, hlogin, happ, not_settles (S := {loginPage, appPage}) ?_ (by simp)⟩
  rintro page (rfl | rfl)
  · exact ⟨appPage, by simp, hlogin⟩
  · exact ⟨loginPage, by simp, happ⟩

end Portal

end Waterbox
