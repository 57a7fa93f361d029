import NodeBackend.Js.Date
import NodeBackend.Js.Text
import NodeBackend.User.Services

namespace node_backend.cryptography_service

open js
open node_backend.exceptions node_backend.user_strategy

/-- What is decoded of a token: a text, or an object with the claims that are read. -/
inductive Content
  | text (text : String)
  | object (claims : String → Option String)

/-- What `verify` throws. A TokenExpiredError is a JsonWebTokenError as well. -/
inductive VerifyError
  | tokenExpired (message : String)
  | jsonWebToken (message : String)
  | other (message : String)

/-- The sign and verify of jsonwebtoken with the secret, at a time. Tokens are signed for
one day. -/
structure JsonWebToken where
  sign : UserAuthInterface → Time → Except ErrorInterface String
  verify : String → Time → Except VerifyError Content

/-- The claims of a token that is signed for a user. -/
def claims (auth : UserAuthInterface) (name : String) : Option String :=
  if name = "username" then auth.username else if name = "clientId" then auth.clientId else none

/-- Whole seconds since the epoch, in which tokens count time. -/
def seconds (time : Time) : Int :=
  time.ms / 1000

def secondsOfDay : Int :=
  86400

/-- A token is valid for one day from the second in which it was signed. -/
def Fresh (since now : Time) : Prop :=
  seconds now < seconds since + secondsOfDay

instance (since now : Time) : Decidable (Fresh since now) :=
  inferInstanceAs (Decidable (_ < _))

/-- A token that was signed is verified for a day, with the claims that it was signed for. -/
structure JsonWebToken.Lawful (jwt : JsonWebToken) : Prop where
  signs : ∀ auth now, ∃ token, jwt.sign auth now = .ok token
  nonempty : ∀ {auth now token}, jwt.sign auth now = .ok token → token ≠ ""
  verify_fresh : ∀ {auth since token now}, jwt.sign auth since = .ok token → Fresh since now →
    jwt.verify token now = .ok (.object (claims auth))
  verify_expired : ∀ {auth since token now}, jwt.sign auth since = .ok token → ¬ Fresh since now →
    jwt.verify token now = .error (.tokenExpired "jwt expired")

structure DecodedJwt where
  content : Option Content
  invalidSignature : Bool
  expired : Bool

/-- CryptographyService.decodeJwt. -/
def decodeJwt (jwt : JsonWebToken) (token : String) (now : Time) : DecodedJwt :=
  match jwt.verify token now with
  | .ok decoded => ⟨some decoded, false, false⟩
  | .error (.tokenExpired _) => ⟨none, false, true⟩
  | .error (.jsonWebToken message) => ⟨none, message == "invalid signature", message == "jwt expired"⟩
  | .error (.other _) => ⟨none, false, false⟩

end node_backend.cryptography_service

namespace node_backend.auth_guard

open js
open node_backend.exceptions node_backend.cryptography_service node_backend.user_query
open node_backend.user_service node_backend.user_strategy

/-- `authorization.replace('Bearer ', '')`. -/
def bearerToken (authorization : String) : String :=
  replaceByNothing authorization "Bearer "

/-- AuthGuard.validateTokenContent. -/
def validateTokenContent (jwt : JsonWebToken) (token : String) (now : Time) :
    Except Failure (String → Option String) :=
  let decoded := decodeJwt jwt token now
  match decoded.content with
  | some (.object claims) => .ok claims
  | _ =>
    if decoded.expired then .error (thrown .invalidToken "Authorization token was expired")
    else if decoded.invalidSignature then
      .error (thrown .invalidToken "Authorization token has invalid signature")
    else .error (thrown .invalidToken "Authorization token is invalid")

/-- The user that AuthGuard.canActivate puts into a request. -/
def canActivate (jwt : JsonWebToken) (now : Time) (authorization : Option String) :
    Except Failure UserAuthInterface :=
  match given authorization with
  | none => .error (thrown .invalidToken "Authorization token is required")
  | some authorization => do
    let content ← validateTokenContent jwt (bearerToken authorization) now
    return {
      username := (content "username").or (content "cognito:username")
      clientId := ((content "clientId").or (content "client_id")).or (content "sub") }

/-- A header of the usual form carries its token, whatever the token is. -/
theorem bearerToken_bearer (token : String) : bearerToken ("Bearer " ++ token) = token := by
  unfold bearerToken replaceByNothing
  rw [String.toList_append, removeFirst_append, String.ofList_toList]

variable {jwt : JsonWebToken} {now : Time}

theorem validateTokenContent_eq_ok {token : String} {claims : String → Option String} :
    validateTokenContent jwt token now = .ok claims ↔ jwt.verify token now = .ok (.object claims) := by
  unfold validateTokenContent decodeJwt
  cases jwt.verify token now with
  | ok content => cases content <;> simp
  | error failure =>
    cases failure with
    | tokenExpired message => simp
    | jsonWebToken message =>
      by_cases hexpired : message = "jwt expired"
      · simp [hexpired]
      · by_cases hsignature : message = "invalid signature" <;> simp [hexpired, hsignature]
    | other message => simp

/-- Whoever gets in is the one whose claims are verified. -/
theorem canActivate_eq_ok {authorization : Option String} {user : UserAuthInterface} :
    canActivate jwt now authorization = .ok user ↔
      ∃ text claims, given authorization = some text ∧ jwt.verify (bearerToken text) now = .ok (.object claims) ∧
        user = {
          username := (claims "username").or (claims "cognito:username")
          clientId := ((claims "clientId").or (claims "client_id")).or (claims "sub") } := by
  unfold canActivate
  simp only [← validateTokenContent_eq_ok]
  cases given authorization with
  | none => simp
  | some text =>
    cases hcontent : validateTokenContent jwt (bearerToken text) now with
    | error failure => simp [hcontent, bind, Except.bind]
    | ok claims => simp [hcontent, bind, Except.bind, pure, Except.pure, eq_comm]

/-- What a token that was signed lets in: its own user, for a day. -/
theorem canActivate_signed (hjwt : jwt.Lawful) {auth user : UserAuthInterface} {since : Time} {text : String}
    (hsign : jwt.sign auth since = .ok (bearerToken text)) :
    canActivate jwt now (some text) = .ok user ↔ Fresh since now ∧ user = auth := by
  have htext : text ≠ "" := by
    rintro rfl
    exact hjwt.nonempty hsign rfl
  rw [canActivate_eq_ok, given_of_ne htext]
  by_cases hfresh : Fresh since now
  · have hverify := hjwt.verify_fresh hsign hfresh
    constructor
    · rintro ⟨_, _, ⟨⟩, hclaims, rfl⟩
      cases hverify.symm.trans hclaims
      exact ⟨hfresh, by simp [claims]⟩
    · rintro ⟨_, rfl⟩
      exact ⟨text, claims user, rfl, hverify, by simp [claims]⟩
  · refine iff_of_false ?_ fun h => hfresh h.1
    rintro ⟨_, _, ⟨⟩, hverify, _⟩
    rw [hjwt.verify_expired hsign hfresh] at hverify
    cases hverify

end node_backend.auth_guard
