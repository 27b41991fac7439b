import Mathlib.Data.Finset.Sort
import Mathlib.Data.String.Basic
import AlphaAlgo.Base.Values
import AlphaAlgo.Lib.Runs
import AlphaAlgo.Lib.Table

/-!
# Auth — logins, refreshes and the permissions that access tokens carry

`login` reads the user and the permissions from the database; `refresh` issues new tokens from the claims of the refresh
token and does not look at the database.  `AuthSystem` holds the database and the tokens issued so far, each with the login
that it goes back to.

* `Rooted`: every token carries the permissions of its login, over any number of refreshes.
* `sound_iff`: every access token is sound when it is issued in exactly the runs in which no refresh goes through after
  its user was deactivated or lost a permission of the login.
-/

namespace AlphaAlgo.Api

open Runs

/-! ### The identity tables -/

structure User where
  id : UUID
  email : String
  passwordHash : String
  isActive : Bool := true

structure Permission where
  id : UUID
  name : String

/-- `users`, the ids of `roles`, `permissions`, `user_roles` (user, role) and `role_permissions` (role, permission). -/
structure IdentityDb where
  users : Table User UUID User.id
  roles : List UUID
  permissions : List Permission
  userRoles : List (UUID × UUID)
  rolePermissions : List (UUID × UUID)
  uniqueEmail : (users.rows.map User.email).Nodup

namespace IdentityDb

def setActive (db : IdentityDb) (userId : UUID) (active : Bool) : IdentityDb :=
  { db with
    users := db.users.modify userId (fun u => { u with isActive := active }) fun _ => rfl
    uniqueEmail := by
      have hkept : (User.email ∘ fun u : User => if u.id = userId then { u with isActive := active } else u) =
          User.email := by
        funext u
        by_cases hu : u.id = userId <;> simp [hu]
      show ((db.users.rows.map _).map User.email).Nodup
      rw [List.map_map, hkept]
      exact db.uniqueEmail }

def deactivate (db : IdentityDb) (userId : UUID) : IdentityDb := db.setActive userId false

def reactivate (db : IdentityDb) (userId : UUID) : IdentityDb := db.setActive userId true

def grantRole (db : IdentityDb) (userId roleId : UUID) : IdentityDb :=
  { db with userRoles := (userId, roleId) :: db.userRoles }

def revokeRole (db : IdentityDb) (userId roleId : UUID) : IdentityDb :=
  { db with userRoles := db.userRoles.filter (· ≠ (userId, roleId)) }

def grantPermission (db : IdentityDb) (roleId permissionId : UUID) : IdentityDb :=
  { db with rolePermissions := (roleId, permissionId) :: db.rolePermissions }

def revokePermission (db : IdentityDb) (roleId permissionId : UUID) : IdentityDb :=
  { db with rolePermissions := db.rolePermissions.filter (· ≠ (roleId, permissionId)) }

/-- The user is there and active. -/
def Active (db : IdentityDb) (userId : UUID) : Prop := ∃ u ∈ db.users.rows, u.id = userId ∧ u.isActive = true

end IdentityDb

/-- The names of the permissions granted to an active user through roles. -/
def resolveUserPermissions (db : IdentityDb) (userId : UUID) : Finset String :=
  ((db.permissions.filter fun p => ∃ rp ∈ db.rolePermissions, rp.2 = p.id ∧
    ∃ role ∈ db.roles, role = rp.1 ∧ ∃ ur ∈ db.userRoles, ur.2 = role ∧
      ∃ u ∈ db.users.rows, u.id = ur.1 ∧ u.id = userId ∧ u.isActive = true).map Permission.name).toFinset

/-! ### Tokens -/

structure Settings where
  jwtIssuer : String := "alpha-algo-local"
  jwtAudience : String := "alpha-algo-users"
  accessTokenTtlMinutes : ℤ := 15
  refreshTokenTtlMinutes : ℤ := 10080

inductive TokenType where
  | access | refresh
deriving DecidableEq

/-- The payload. -/
structure Claims where
  sub : String
  permissions : List String
  type : TokenType
  iss : String
  aud : String
  iat : ℤ
  exp : ℤ
  jti : String
deriving DecidableEq

/-- A header and a payload, signed with the secret. -/
structure Token where
  alg : String := "HS256"
  typ : String := "JWT"
  claims : Claims
deriving DecidableEq

/-- What `create_token` reads from the clock and from `uuid4().hex`. -/
structure Stamp where
  now : ℤ
  jti : String

def createToken (settings : Settings) (subject : String) (permissions : Finset String) (type : TokenType)
    (ttlSeconds : ℤ) (stamp : Stamp) : Token where
  claims :=
    { sub := subject
      permissions := permissions.sort
      type := type
      iss := settings.jwtIssuer
      aud := settings.jwtAudience
      iat := stamp.now
      exp := stamp.now + ttlSeconds
      jti := stamp.jti }

def issueAccessToken (settings : Settings) (subject : String) (permissions : Finset String) (stamp : Stamp) : Token :=
  createToken settings subject permissions .access (settings.accessTokenTtlMinutes * 60) stamp

def issueRefreshToken (settings : Settings) (subject : String) (permissions : Finset String) (stamp : Stamp) : Token :=
  createToken settings subject permissions .refresh (settings.refreshTokenTtlMinutes * 60) stamp

/-- What a presented text is: not three parts, not signed with the secret, signed but not readable, or a token. -/
inductive Presented where
  | malformed
  | unsigned
  | undecodable
  | signed (token : Token)

structure TokenPayload where
  subject : String
  permissions : Finset String
  tokenType : TokenType
  issuedAt : ℤ
  expiresAt : ℤ
  jti : String

/-- `decode_token`; the errors are the texts of `TokenError`. -/
def decodeToken (settings : Settings) (now : ℤ) (expectedType : Option TokenType) :
    Presented → Except String TokenPayload
  | .malformed => .error "malformed token"
  | .unsigned => .error "invalid signature"
  | .undecodable => .error "invalid token encoding"
  | .signed token =>
    if token.alg ≠ "HS256" then .error "unsupported algorithm"
    else if token.claims.exp ≤ now then .error "expired token"
    else if token.claims.iss ≠ settings.jwtIssuer then .error "invalid issuer"
    else if token.claims.aud ≠ settings.jwtAudience then .error "invalid audience"
    else if expectedType ≠ none ∧ expectedType ≠ some token.claims.type then .error "invalid token type"
    else .ok
      { subject := token.claims.sub
        permissions := token.claims.permissions.toFinset
        tokenType := token.claims.type
        issuedAt := token.claims.iat
        expiresAt := token.claims.exp
        jti := token.claims.jti }

/-! ### The routes -/

structure ApiError where
  code : String
  message : String
  statusCode : ℕ
deriving DecidableEq

structure TokenResponse where
  accessToken : Token
  refreshToken : Token
  tokenType : String := "bearer"
  expiresIn : ℤ

/-- The two tokens of a response, for the stamps of the two calls of `create_token`. -/
def tokenResponse (settings : Settings) (subject : String) (permissions : Finset String) (access refresh : Stamp) :
    TokenResponse where
  accessToken := issueAccessToken settings subject permissions access
  refreshToken := issueRefreshToken settings subject permissions refresh
  expiresIn := settings.accessTokenTtlMinutes * 60

def findUserByEmail (db : IdentityDb) (email : String) : Option User := db.users.rows.find? fun u => u.email = email

def invalidCredentials : ApiError := ⟨"AUTH_INVALID_CREDENTIALS", "Invalid email or password.", 401⟩

def accountDisabled : ApiError := ⟨"AUTH_DISABLED", "Account is disabled.", 403⟩

def invalidRefreshToken : ApiError := ⟨"AUTH_INVALID", "Invalid or expired refresh token.", 401⟩

section

-- `verifyPassword` stands for the check of the password hasher
variable (verifyPassword : String → String → Bool) (settings : Settings)

def login (db : IdentityDb) (email password : String) (forAccess forRefresh : Stamp) : Except ApiError TokenResponse :=
  match findUserByEmail db email with
  | none => .error invalidCredentials
  | some user =>
    if ¬ verifyPassword password user.passwordHash then .error invalidCredentials
    else if ¬ user.isActive then .error accountDisabled
    else .ok (tokenResponse settings user.id.str (resolveUserPermissions db user.id) forAccess forRefresh)

def refresh (now : ℤ) (refreshToken : Presented) (forAccess forRefresh : Stamp) : Except ApiError TokenResponse :=
  match decodeToken settings now (some .refresh) refreshToken with
  | .error _ => .error invalidRefreshToken
  | .ok payload => .ok (tokenResponse settings payload.subject payload.permissions forAccess forRefresh)

/-! ### Runs -/

/-- A login that went through: its user and the permissions of that moment. -/
structure Grant where
  user : UUID
  permissions : Finset String

/-- The database and the tokens issued so far, each with the login that it goes back to. -/
structure AuthSystem where
  db : IdentityDb
  issued : List (Token × Grant) := []

inductive AuthOp where
  | login (email password : String) (forAccess forRefresh : Stamp)
  | refresh (now : ℤ) (refreshToken : Presented) (forAccess forRefresh : Stamp)
  | deactivate (userId : UUID)
  | reactivate (userId : UUID)
  | grantRole (userId roleId : UUID)
  | revokeRole (userId roleId : UUID)
  | grantPermission (roleId permissionId : UUID)
  | revokePermission (roleId permissionId : UUID)

/-- The login that a presented token goes back to. -/
def AuthSystem.grantOf (s : AuthSystem) : Presented → Option Grant
  | .signed token => (s.issued.find? fun p => p.1 = token).map Prod.snd
  | _ => none

namespace AuthOp

/-- The response of a request that goes through. -/
def response (s : AuthSystem) : AuthOp → Option TokenResponse
  | .login email password forAccess forRefresh =>
    (Api.login verifyPassword settings s.db email password forAccess forRefresh).toOption
  | .refresh now refreshToken forAccess forRefresh => (Api.refresh settings now refreshToken forAccess forRefresh).toOption
  | _ => none

/-- The login that the tokens of a response go back to. -/
def grant (s : AuthSystem) : AuthOp → Option Grant
  | .login email _ _ _ => (findUserByEmail s.db email).map fun user => ⟨user.id, resolveUserPermissions s.db user.id⟩
  | .refresh _ refreshToken _ _ => s.grantOf refreshToken
  | _ => none

def changeDb (db : IdentityDb) : AuthOp → IdentityDb
  | .login _ _ _ _ => db
  | .refresh _ _ _ _ => db
  | .deactivate userId => db.deactivate userId
  | .reactivate userId => db.reactivate userId
  | .grantRole userId roleId => db.grantRole userId roleId
  | .revokeRole userId roleId => db.revokeRole userId roleId
  | .grantPermission roleId permissionId => db.grantPermission roleId permissionId
  | .revokePermission roleId permissionId => db.revokePermission roleId permissionId

end AuthOp

def authStep (s : AuthSystem) (op : AuthOp) : AuthSystem where
  db := op.changeDb s.db
  issued :=
    match op.response verifyPassword settings s, op.grant s with
    | some r, some g => (r.accessToken, g) :: (r.refreshToken, g) :: s.issued
    | _, _ => s.issued

/-- The access token that a request issues is for an active user and carries permissions of that user. -/
def Sound (s : AuthSystem) (op : AuthOp) : Prop :=
  ∀ r, op.response verifyPassword settings s = some r → ∃ user, s.db.Active user ∧
    r.accessToken.claims.sub = user.str ∧ ∀ p ∈ r.accessToken.claims.permissions, p ∈ resolveUserPermissions s.db user

/-- Signatures are not forged: a signed token that is presented was issued. -/
def Unforged (s : AuthSystem) (op : AuthOp) : Prop :=
  ∀ now token forAccess forRefresh, op = .refresh now (.signed token) forAccess forRefresh → ∃ g, (token, g) ∈ s.issued

/-- The condition on a refresh that is not refused: the user of the login is still active and still has the permissions
of the login. -/
def StillGranted (s : AuthSystem) (op : AuthOp) : Prop :=
  ∀ now refreshToken forAccess forRefresh payload g, op = .refresh now refreshToken forAccess forRefresh →
    decodeToken settings now (some .refresh) refreshToken = .ok payload → s.grantOf refreshToken = some g →
      s.db.Active g.user ∧ g.permissions ⊆ resolveUserPermissions s.db g.user

/-! ### The two routes -/

variable {verifyPassword settings}

/-- What a refresh token that is accepted says. -/
theorem decodeToken_ok {now : ℤ} {type : Option TokenType} {presented : Presented} {payload : TokenPayload}
    (h : decodeToken settings now type presented = .ok payload) :
    ∃ token, presented = .signed token ∧ payload.subject = token.claims.sub ∧
      payload.permissions = token.claims.permissions.toFinset := by
  cases presented with
  | malformed | unsigned | undecodable => cases h
  | signed token =>
    unfold decodeToken at h
    dsimp only at h
    split_ifs at h
    cases h
    exact ⟨token, rfl, rfl, rfl⟩

/-- A refresh token is accepted until it expires, and gives back what it was issued for. -/
theorem decodeToken_issued {subject : String} {permissions : Finset String} {stamp : Stamp} {now : ℤ}
    (h : now < stamp.now + settings.refreshTokenTtlMinutes * 60) :
    ∃ payload, decodeToken settings now (some .refresh) (.signed (issueRefreshToken settings subject permissions stamp)) =
      .ok payload ∧ payload.subject = subject ∧ payload.permissions = permissions := by
  refine ⟨⟨subject, permissions, .refresh, stamp.now, stamp.now + settings.refreshTokenTtlMinutes * 60, stamp.jti⟩,
    ?_, rfl, rfl⟩
  simp [decodeToken, issueRefreshToken, createToken, h]

theorem login_ok {db : IdentityDb} {email password : String} {forAccess forRefresh : Stamp} {r : TokenResponse}
    (h : login verifyPassword settings db email password forAccess forRefresh = .ok r) :
    ∃ user, findUserByEmail db email = some user ∧ user.isActive = true ∧
      r = tokenResponse settings user.id.str (resolveUserPermissions db user.id) forAccess forRefresh := by
  unfold login at h
  cases hfind : findUserByEmail db email with
  | none => rw [hfind] at h; cases h
  | some user =>
    rw [hfind] at h
    dsimp only at h
    split_ifs at h with hpassword hactive
    cases h
    exact ⟨user, rfl, by simpa using hactive, rfl⟩

theorem ok_of_toOption {ε α : Type*} {x : Except ε α} {a : α} (h : x.toOption = some a) : x = .ok a := by
  cases x with
  | error e => cases h
  | ok b => cases h; rfl

/-- What a request can issue: tokens of a login, or tokens of a refresh token that is accepted. -/
inductive Issues (s : AuthSystem) : AuthOp → TokenResponse → Prop where
  | login {email password : String} {forAccess forRefresh : Stamp} {user : User} (hfind : findUserByEmail s.db email = some user)
      (hactive : user.isActive = true) : Issues s (.login email password forAccess forRefresh)
        (tokenResponse settings user.id.str (resolveUserPermissions s.db user.id) forAccess forRefresh)
  | refresh {now : ℤ} {presented : Presented} {forAccess forRefresh : Stamp} {payload : TokenPayload}
      (hdecode : decodeToken settings now (some .refresh) presented = .ok payload) :
      Issues s (.refresh now presented forAccess forRefresh)
        (tokenResponse settings payload.subject payload.permissions forAccess forRefresh)

theorem issues_of_response {s : AuthSystem} {op : AuthOp} {r : TokenResponse}
    (h : op.response verifyPassword settings s = some r) : @Issues settings s op r := by
  cases op with
  | login email password forAccess forRefresh =>
    obtain ⟨user, hfind, hactive, rfl⟩ := login_ok (ok_of_toOption h)
    exact .login hfind hactive
  | refresh now presented forAccess forRefresh =>
    have hok := ok_of_toOption h
    unfold Api.refresh at hok
    cases hdecode : decodeToken settings now (some .refresh) presented with
    | error e => rw [hdecode] at hok; cases hok
    | ok payload =>
      rw [hdecode] at hok
      cases hok
      exact .refresh hdecode
  | deactivate | reactivate | grantRole | revokeRole | grantPermission | revokePermission => cases h

/-! ### Tokens and logins -/

/-- Every token carries the user and the permissions of the login that it goes back to. -/
def Rooted (s : AuthSystem) : Prop :=
  ∀ token g, (token, g) ∈ s.issued → token.claims.sub = g.user.str ∧ token.claims.permissions = g.permissions.sort

theorem grantOf_mem {s : AuthSystem} {token : Token} {g : Grant} (h : s.grantOf (.signed token) = some g) :
    (token, g) ∈ s.issued := by
  obtain ⟨p, hfind, rfl⟩ := Option.map_eq_some_iff.mp h
  have hkey : p.1 = token := by simpa using List.find?_some hfind
  rw [← hkey]
  exact List.mem_of_find?_eq_some hfind

theorem grantOf_of_issued {s : AuthSystem} {token : Token} {g : Grant} (h : (token, g) ∈ s.issued) :
    ∃ g', s.grantOf (.signed token) = some g' := by
  cases hfind : s.issued.find? fun p => decide (p.1 = token) with
  | none => exact absurd (List.find?_eq_none.mp hfind _ h) (by simp)
  | some p => exact ⟨p.2, by rw [AuthSystem.grantOf, hfind]; rfl⟩

/-- The tokens of a refresh carry what the login gave. -/
theorem Rooted.payload {s : AuthSystem} {now : ℤ} {type : Option TokenType} {presented : Presented}
    {payload : TokenPayload} {g : Grant} (hs : Rooted s) (hdecode : decodeToken settings now type presented = .ok payload)
    (hgrant : s.grantOf presented = some g) : payload.subject = g.user.str ∧ payload.permissions = g.permissions := by
  obtain ⟨token, rfl, hsub, hpermissions⟩ := decodeToken_ok hdecode
  obtain ⟨hsub', hpermissions'⟩ := hs token g (grantOf_mem hgrant)
  exact ⟨hsub.trans hsub', by rw [hpermissions, hpermissions', Finset.sort_toFinset]⟩

/-- **Tokens stay rooted** over logins, refreshes and changes of the database. -/
theorem Rooted.step {s : AuthSystem} (h : Rooted s) (op : AuthOp) : Rooted (authStep verifyPassword settings s op) := by
  have hsame : (authStep verifyPassword settings s op).issued = s.issued →
      Rooted (authStep verifyPassword settings s op) := by
    intro hissued token g hmem
    rw [hissued] at hmem
    exact h token g hmem
  cases hresponse : op.response verifyPassword settings s with
  | none => exact hsame (by rw [authStep, hresponse])
  | some r =>
    cases hgrant : op.grant s with
    | none => exact hsame (by rw [authStep, hresponse, hgrant])
    | some g =>
      -- both tokens of the response are issued for one subject and one set of permissions, those of the login
      have hclaims : ∃ subject permissions forAccess forRefresh, subject = g.user.str ∧ permissions = g.permissions ∧
          r = tokenResponse settings subject permissions forAccess forRefresh := by
        cases issues_of_response hresponse with
        | @login email password forAccess forRefresh user hfind hactive =>
          rw [AuthOp.grant, hfind] at hgrant
          cases hgrant
          exact ⟨_, _, _, _, rfl, rfl, rfl⟩
        | @refresh now presented forAccess forRefresh payload hdecode =>
          obtain ⟨hsub, hpermissions⟩ := h.payload hdecode hgrant
          exact ⟨_, _, _, _, hsub, hpermissions, rfl⟩
      obtain ⟨subject, permissions, forAccess, forRefresh, rfl, rfl, rfl⟩ := hclaims
      intro token g' hmem
      rw [authStep, hresponse, hgrant] at hmem
      rcases List.mem_cons.mp hmem with heq | hmem
      · cases heq
        exact ⟨rfl, rfl⟩
      rcases List.mem_cons.mp hmem with heq | hmem
      · cases heq
        exact ⟨rfl, rfl⟩
      exact h token g' hmem

theorem rooted_new (db : IdentityDb) : Rooted ⟨db, []⟩ := fun _ _ h => absurd h List.not_mem_nil

/-! ### Sound tokens -/

/-- **A step issues a sound access token** exactly when it meets the condition: a login always does. -/
theorem sound_step_iff {s : AuthSystem} {op : AuthOp} (hs : Rooted s) (hop : Unforged s op) :
    Sound verifyPassword settings s op ↔ StillGranted settings s op := by
  constructor
  · rintro h now presented forAccess forRefresh payload g rfl hdecode hgrant
    obtain ⟨hsub, hpermissions⟩ := hs.payload hdecode hgrant
    have hresponse : (AuthOp.refresh now presented forAccess forRefresh).response verifyPassword settings s =
        some (tokenResponse settings payload.subject payload.permissions forAccess forRefresh) := by
      rw [AuthOp.response, Api.refresh, hdecode]
      rfl
    obtain ⟨user, hactive, huser, hheld⟩ := h _ hresponse
    have hsame : user = g.user := UUID.str_inj (huser.symm.trans hsub)
    subst hsame
    refine ⟨hactive, fun p hp => hheld p ?_⟩
    exact (Finset.mem_sort _).mpr (hpermissions ▸ hp)
  · intro h r hresponse
    cases issues_of_response hresponse with
    | @login email password forAccess forRefresh user hfind hactive =>
      exact ⟨user.id, ⟨user, List.mem_of_find?_eq_some hfind, rfl, hactive⟩, rfl, fun p hp => (Finset.mem_sort _).mp hp⟩
    | @refresh now presented forAccess forRefresh payload hdecode =>
      obtain ⟨token, rfl, -, -⟩ := decodeToken_ok hdecode
      obtain ⟨g, hissued⟩ := hop now token forAccess forRefresh rfl
      obtain ⟨g', hgrant⟩ := grantOf_of_issued hissued
      obtain ⟨hsub, hpermissions⟩ := hs.payload hdecode hgrant
      obtain ⟨hactive, hheld⟩ := h now _ forAccess forRefresh payload g' rfl hdecode hgrant
      refine ⟨g'.user, hactive, hsub, fun p hp => hheld (hpermissions ▸ (Finset.mem_sort _).mp hp)⟩

/-- **Every access token is sound when it is issued** in exactly the runs in which no refresh goes through after its user
was deactivated or lost a permission of the login. -/
theorem sound_iff (verifyPassword : String → String → Bool) (settings : Settings) (db : IdentityDb) (ops : List AuthOp)
    (hunforged : Along (authStep verifyPassword settings) Unforged ⟨db, []⟩ ops) :
    Along (authStep verifyPassword settings) (Sound verifyPassword settings) ⟨db, []⟩ ops ↔
      Along (authStep verifyPassword settings) (StillGranted settings) ⟨db, []⟩ ops := by
  exact along_congr (I := Rooted) (fun _ op h => h.step op) (fun _ _ hs hop => sound_step_iff hs hop) (rooted_new db)
    hunforged

/-- A trader with one role and one permission. -/
def sampleDb : IdentityDb where
  users := ⟨[⟨⟨1⟩, "trader@example.com", "secret", true⟩], by decide⟩
  roles := [⟨2⟩]
  permissions := [⟨⟨3⟩, "trading:paper"⟩]
  userRoles := [(⟨1⟩, ⟨2⟩)]
  rolePermissions := [(⟨2⟩, ⟨3⟩)]
  uniqueEmail := by decide

/-- The refresh token of the login at time 0. -/
def sampleRefreshToken : Token :=
  issueRefreshToken {} (UUID.mk 1).str (resolveUserPermissions sampleDb ⟨1⟩) ⟨0, "b"⟩

def sampleLogin : AuthOp := .login "trader@example.com" "secret" ⟨0, "a"⟩ ⟨0, "b"⟩

def sampleRefresh : AuthOp := .refresh 60 (.signed sampleRefreshToken) ⟨60, "c"⟩ ⟨60, "d"⟩

theorem sampleLogin_step : authStep (· == ·) {} ⟨sampleDb, []⟩ sampleLogin = ⟨sampleDb,
    [(issueAccessToken {} (UUID.mk 1).str (resolveUserPermissions sampleDb ⟨1⟩) ⟨0, "a"⟩,
      ⟨⟨1⟩, resolveUserPermissions sampleDb ⟨1⟩⟩), (sampleRefreshToken, ⟨⟨1⟩, resolveUserPermissions sampleDb ⟨1⟩⟩)]⟩ := by
  rfl

theorem sampleRefresh_unforged {s : AuthSystem} {g : Grant} (h : (sampleRefreshToken, g) ∈ s.issued) :
    Unforged s sampleRefresh := by
  intro now token forAccess forRefresh heq
  cases heq
  exact ⟨g, h⟩

theorem sampleLogin_unforged (s : AuthSystem) : Unforged s sampleLogin := by
  intro now token forAccess forRefresh heq
  cases heq

theorem sampleLogin_stillGranted (s : AuthSystem) : StillGranted {} s sampleLogin := by
  intro now presented forAccess forRefresh payload g heq
  cases heq

/-- Nothing changes between the login and the refresh. -/
theorem sound_iff_unchanged :
    Along (authStep (· == ·) {}) (Sound (· == ·) {}) ⟨sampleDb, []⟩ [sampleLogin, sampleRefresh] := by
  refine (sound_iff (· == ·) {} sampleDb [sampleLogin, sampleRefresh] ⟨sampleLogin_unforged _, ?_, trivial⟩).mpr
    ⟨sampleLogin_stillGranted _, ?_, trivial⟩
  · rw [sampleLogin_step]
    exact sampleRefresh_unforged (List.mem_cons_of_mem _ List.mem_cons_self)
  · rw [sampleLogin_step]
    intro now presented forAccess forRefresh payload g heq hdecode hgrant
    cases heq
    have hmem := grantOf_mem hgrant
    simp only [List.mem_cons, Prod.mk.injEq, List.not_mem_nil, or_false] at hmem
    have hg : g = ⟨⟨1⟩, resolveUserPermissions sampleDb ⟨1⟩⟩ := by
      rcases hmem with ⟨-, hg⟩ | ⟨-, hg⟩ <;> exact hg
    subst hg
    exact ⟨⟨_, List.mem_cons_self, rfl, rfl⟩, Finset.Subset.refl _⟩

/-- The user is deactivated after the login, and the refresh goes through. -/
theorem not_sound_deactivated : ¬ ∀ (verifyPassword : String → String → Bool) (settings : Settings) (db : IdentityDb)
    (ops : List AuthOp), Along (authStep verifyPassword settings) Unforged ⟨db, []⟩ ops →
      Along (authStep verifyPassword settings) (Sound verifyPassword settings) ⟨db, []⟩ ops := by
  intro h
  have hdeactivated : ∀ s : AuthSystem, Unforged s (.deactivate ⟨1⟩) := by
    intro s now token forAccess forRefresh heq
    cases heq
  have hrun := h (· == ·) {} sampleDb [sampleLogin, .deactivate ⟨1⟩, sampleRefresh] ⟨sampleLogin_unforged _,
    hdeactivated _, by
    rw [sampleLogin_step]
    exact sampleRefresh_unforged (List.mem_cons_of_mem _ List.mem_cons_self), trivial⟩
  obtain ⟨payload, hdecode, -, -⟩ := @decodeToken_issued {} (UUID.mk 1).str
    (resolveUserPermissions sampleDb ⟨1⟩) ⟨0, "b"⟩ 60 (by decide)
  obtain ⟨user, ⟨u, hu, -, hactive⟩, -, -⟩ := hrun.2.2.1 _ (by
    show (Api.refresh {} 60 (.signed sampleRefreshToken) ⟨60, "c"⟩ ⟨60, "d"⟩).toOption = _
    rw [Api.refresh, sampleRefreshToken, hdecode]
    rfl)
  rw [sampleLogin_step] at hu
  cases List.mem_singleton.mp hu
  cases hactive

end

end AlphaAlgo.Api
