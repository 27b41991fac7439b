import AlphaAlgo.Api.Auth
import AlphaAlgo.Lib.Base64
import AlphaAlgo.Lib.Hmac
import AlphaAlgo.Lib.JsonBytes
import AlphaAlgo.Lib.Rounding
import AlphaAlgo.Observability.Tracing

/-!
# Tokens — signed texts

`create_token` writes a header and a payload as JSON in Base64 and signs both; `decode_token` reads such a text.  It raises a
`TokenError` for what it checks, and the `try` block turns what Base64 and JSON raise for a value into one; the rest of what
Python raises on the way goes through.

* `handled_iff`: the texts on which `decode_token` returns or raises a `TokenError`.
* `decode_created`: what becomes of a token that `create_token` made, by the blocks of the two keys.
* `refines_routes`: the tokens of the routes are what such texts stand for.
* `read_with_zero`: a secret and the secret with a zero after it are one key.
* `tokens_iff`: the texts on which nothing else is raised, and the secrets that read a token.
-/

namespace AlphaAlgo.Api.Tokens

open JsonRead (maxDigits digitCount loadsBytes)
open Observability (toAscii isSpaceC)
open Broker (readNumber)
open Loop

/-- What the functions of the module can raise. -/
inductive Raised where
  | tokenError (message : String)
  | unicodeEncodeError
  | typeError
  | attributeError
  | valueError
  | overflowError
  | recursionError
deriving DecidableEq

/-! ### Numbers -/

/-- The number of a decimal text. -/
def decimalValue (text : List Char) : ℚ :=
  let (sign, l) : ℚ × List Char := match text with
    | '-' :: l => (-1, l)
    | l => (1, l)
  let whole := l.takeWhile Char.isDigit
  let (fraction, rest) := match l.dropWhile Char.isDigit with
    | '.' :: l => (l.takeWhile Char.isDigit, l.dropWhile Char.isDigit)
    | l => ([], l)
  let exponent : ℤ := match rest with
    | _ :: '-' :: l => -Int.ofNat (Nat.ofDigitChars 10 l 0)
    | _ :: '+' :: l => Nat.ofDigitChars 10 l 0
    | _ :: l => Nat.ofDigitChars 10 l 0
    | [] => 0
  sign * (Nat.ofDigitChars 10 (whole ++ fraction) 0 : ℕ) * 10 ^ (exponent - fraction.length)

/-- The nearest `float`; `none` is infinite. -/
def toFloat (x : ℚ) : Option ℚ :=
  if x = 0 then some 0
  else
    let e := max (Int.log 2 |x| - 52) (-1074)
    let y : ℚ := halfEven (x / 2 ^ e) * 2 ^ e
    if |y| < 2 ^ 1024 then some y else none

/-- `int` of a `float`. -/
def intOfFloat (text : String) : Except Raised ℤ :=
  if text = "NaN" then .error .valueError
  else if text = "Infinity" ∨ text = "-Infinity" then .error .overflowError
  else
    match toFloat (decimalValue text.toList) with
    | some x => .ok (pyInt x)
    | none => .error .overflowError

/-- `int(s)`. -/
def intBase10 (s : List Char) : Option ℤ :=
  let l := (((s.map toAscii).dropWhile isSpaceC).reverse.dropWhile isSpaceC).reverse
  if maxDigits < (l.filter Char.isDigit).length then none
  else
    match l with
    | '+' :: l => (readNumber l).map Int.ofNat
    | '-' :: l => (readNumber l).map fun n => -Int.ofNat n
    | l => (readNumber l).map Int.ofNat

/-- `int(value)`. -/
def intOf : JsonValue → Except Raised ℤ
  | .bool b => .ok (if b then 1 else 0)
  | .int n => .ok n
  | .float text => intOfFloat text
  | .str s =>
    match intBase10 s.toList with
    | some n => .ok n
    | none => .error .valueError
  | _ => .error .typeError

/-! ### Values -/

/-- What the interpreter brings: the levels of JSON that it reads, and `repr` of a `float`, an array or an object, with `none`
where the value has too many levels. -/
structure Interpreter where
  levels : ℕ
  repr : JsonValue → Option String

/-- `str(value)`. -/
def strOf (python : Interpreter) : JsonValue → Except Raised String
  | .null => .ok "None"
  | .bool b => .ok (if b then "True" else "False")
  | .int n => .ok (toString n)
  | .str s => .ok s
  | v =>
    match python.repr v with
    | some s => .ok s
    | none => .error .recursionError

def hashable : JsonValue → Bool
  | .arr _ | .obj _ => false
  | _ => true

/-- `frozenset(value)`: the elements, some perhaps more than once. -/
def frozenset : JsonValue → Except Raised (List JsonValue)
  | .str s => .ok (s.toList.map fun c => .str (String.singleton c))
  | .arr l => if l.all hashable = true then .ok l else .error .typeError
  | .obj l => .ok (l.map fun field => .str field.1)
  | _ => .error .typeError

abbrev Data := List (String × JsonValue)

/-- `data.get(key, default)`; of fields with one key the last counts. -/
def get (data : Data) (key : String) (default : JsonValue) : JsonValue := (data.reverse.lookup key).getD default

/-- `value == s`. -/
def isText (s : String) : JsonValue → Bool
  | .str t => t == s
  | _ => false

/-- The fields of a value whose `get` is called. -/
def fields : JsonValue → Except Raised Data
  | .obj l => .ok l
  | _ => .error .attributeError

/-! ### The functions of the module -/

def algorithm : String := "HS256"

structure TokenPayload where
  subject : String
  permissions : List JsonValue
  tokenType : String
  issuedAt : ℤ
  expiresAt : ℤ
  jti : String

def b64urlEncode (data : List ℕ) : List Char := Base64.unpadded (Base64.encode data)

def b64urlDecode (data : List Char) : Option (List ℕ) := Base64.decode (Base64.padded data)

def isAscii (s : List Char) : Bool := s.all (·.toNat < 128)

def signingInput (headerB64 payloadB64 : List Char) : List ℕ := (headerB64 ++ '.' :: payloadB64).map Char.toNat

/-- The signature of two parts of ASCII. -/
def signature (headerB64 payloadB64 : List Char) (secret : String) : List Char :=
  b64urlEncode (Hmac.digest (utf8 secret) (signingInput headerB64 payloadB64))

/-- `_sign`. -/
def sign (headerB64 payloadB64 : List Char) (secret : String) : Except Raised (List Char) := do
  raiseIf (isAscii (headerB64 ++ payloadB64) = false) .unicodeEncodeError
  return signature headerB64 payloadB64 secret

/-- `hmac.compare_digest` of two texts. -/
def compareDigest (a b : List Char) : Except Raised Bool := do
  raiseIf (isAscii (a ++ b) = false) .typeError
  return a == b

/-- The keyword arguments of `create_token`. -/
structure CreateArgs where
  subject : String
  permissions : List String
  tokenType : String
  ttlSeconds : ℤ
  secret : String
  issuer : String
  audience : String

def CreateArgs.header : Json := .obj [("alg", .str algorithm), ("typ", .str "JWT")]

/-- The payload, at a time and with a new id. -/
def CreateArgs.payload (a : CreateArgs) (now : ℤ) (jti : UUID) : Json :=
  .obj [("sub", .str a.subject), ("permissions", .arr ((a.permissions.dedup.insertionSort (· ≤ ·)).map .str)),
    ("type", .str a.tokenType), ("iss", .str a.issuer), ("aud", .str a.audience), ("iat", .int now),
    ("exp", .int (now + a.ttlSeconds)), ("jti", .str (String.ofList jti.hex))]

/-- The text of a value in a token. -/
def encodePart (j : Json) : List Char := b64urlEncode (utf8 (j.dumps .compact))

/-- `create_token`; an integer that is too long to be written is a `ValueError`. -/
def createToken (a : CreateArgs) (now : ℤ) (jti : UUID) : Except Raised String := do
  raiseIf (maxDigits < digitCount now ∨ maxDigits < digitCount (now + a.ttlSeconds)) .valueError
  let headerB64 := encodePart CreateArgs.header
  let payloadB64 := encodePart (a.payload now jti)
  let signed ← sign headerB64 payloadB64 a.secret
  return String.ofList (headerB64 ++ '.' :: payloadB64 ++ '.' :: signed)

/-- The keyword arguments of `decode_token`. -/
structure DecodeArgs where
  secret : String
  issuer : String
  audience : String
  expectedType : Option String := none

/-- The `try` block: every `ValueError` is caught, a `RecursionError` is not. -/
def caught : Except JsonRead.LoadsError JsonValue → Except Raised JsonValue
  | .ok v => .ok v
  | .error .recursion => .error .recursionError
  | .error _ => .error (.tokenError "invalid token encoding")

/-- A part of a token as a value. -/
def readPart (python : Interpreter) (part : List Char) : Except Raised JsonValue :=
  match b64urlDecode part with
  | none => .error (.tokenError "invalid token encoding")
  | some bytes => caught (loadsBytes python.levels bytes)

/-- The payload that is returned. -/
def payloadOf (python : Interpreter) (payload : Data) : Except Raised TokenPayload := do
  let subject ← strOf python (get payload "sub" (.str ""))
  let permissions ← frozenset (get payload "permissions" (.arr []))
  let tokenType ← strOf python (get payload "type" (.str ""))
  let issuedAt ← intOf (get payload "iat" (.int 0))
  let expiresAt ← intOf (get payload "exp" (.int 0))
  let jti ← strOf python (get payload "jti" (.str ""))
  return ⟨subject, permissions, tokenType, issuedAt, expiresAt, jti⟩

/-- The checks of the claims, once header and payload are read. -/
def checkClaims (python : Interpreter) (a : DecodeArgs) (now : ℤ) (header payload : JsonValue) :
    Except Raised TokenPayload := do
  let header ← fields header
  raiseIf (isText algorithm (get header "alg" .null) = false) (.tokenError "unsupported algorithm")
  let payload ← fields payload
  let expiry ← intOf (get payload "exp" (.int 0))
  raiseIf (expiry ≤ now) (.tokenError "expired token")
  raiseIf (isText a.issuer (get payload "iss" .null) = false) (.tokenError "invalid issuer")
  raiseIf (isText a.audience (get payload "aud" .null) = false) (.tokenError "invalid audience")
  raiseIf (∃ t ∈ a.expectedType, isText t (get payload "type" .null) = false) (.tokenError "invalid token type")
  payloadOf python payload

/-- What is left of `decode_token` when the text has three parts. -/
def decodeParts (python : Interpreter) (a : DecodeArgs) (now : ℤ) (headerB64 payloadB64 signed : List Char) :
    Except Raised TokenPayload := do
  let expected ← sign headerB64 payloadB64 a.secret
  let same ← compareDigest signed expected
  raiseIf (same = false) (.tokenError "invalid signature")
  let header ← readPart python headerB64
  let payload ← readPart python payloadB64
  checkClaims python a now header payload

/-- `decode_token`. -/
def decodeToken (python : Interpreter) (a : DecodeArgs) (now : ℤ) (token : String) : Except Raised TokenPayload :=
  match token.toList.splitOn '.' with
  | [headerB64, payloadB64, signed] => decodeParts python a now headerB64 payloadB64 signed
  | _ => .error (.tokenError "malformed token")

example : intOf (.float "1e23") = .ok 99999999999999991611392 ∧ intOf (.str " -1_000 ") = .ok (-1000) ∧
    intOf (.float "1e999") = .error .overflowError := by decide +kernel

/-! ### What is raised -/

/-- It returns or raises a `TokenError`. -/
def Handled {α : Type} (r : Except Raised α) : Prop := ∀ e, r = .error e → ∃ message, e = .tokenError message

section Handled

variable {α β : Type}

theorem handled_ok (a : α) : Handled (.ok a : Except Raised α) := fun e h => by cases h

theorem handled_tokenError (message : String) : Handled (.error (.tokenError message) : Except Raised α) := by
  rintro e h
  cases h
  exact ⟨message, rfl⟩

theorem handled_iff_exists {r : Except Raised α} :
    Handled r ↔ (∃ a, r = .ok a) ∨ ∃ message, r = .error (.tokenError message) := by
  cases r with
  | ok a => exact ⟨fun _ => .inl ⟨a, rfl⟩, fun _ => handled_ok a⟩
  | error e =>
    constructor
    · intro h
      obtain ⟨message, rfl⟩ := h e rfl
      exact .inr ⟨message, rfl⟩
    · rintro (⟨a, ha⟩ | ⟨message, hm⟩)
      · cases ha
      · rw [hm]
        exact handled_tokenError message

/-- **Two parts**: the second is reached when the first returns. -/
theorem handled_bind {x : Except Raised α} {f : α → Except Raised β} :
    Handled (x >>= f) ↔ Handled x ∧ ∀ a, x = .ok a → Handled (f a) := by
  cases x with
  | ok a =>
    refine ⟨fun h => ⟨handled_ok a, fun b hb => ?_⟩, fun h => h.2 a rfl⟩
    cases hb
    exact h
  | error e =>
    refine ⟨fun h => ⟨fun e' he' => h e' (by cases he'; rfl), fun a ha => by cases ha⟩, fun h e' he' => h.1 e' ?_⟩
    cases he'
    rfl

/-- What never raises a `TokenError` is handled where it returns. -/
theorem handled_iff_ok {r : Except Raised α} (h : ∀ message, r ≠ .error (.tokenError message)) :
    Handled r ↔ ∃ a, r = .ok a := by
  rw [handled_iff_exists]
  exact or_iff_left fun ⟨message, hm⟩ => h message hm

/-- A check with a `TokenError`, and what follows where it passes. -/
theorem handled_raiseIf {p : Prop} [Decidable p] {message : String} {x : Except Raised β} :
    Handled (raiseIf p (.tokenError message) >>= fun _ => x) ↔ (¬p → Handled x) := by
  unfold raiseIf
  split_ifs with hp
  · exact ⟨fun _ hn => absurd hp hn, fun _ => handled_tokenError message⟩
  · exact ⟨fun h _ => h, fun h => h hp⟩

end Handled

theorem intOfFloat_ne (text message : String) : intOfFloat text ≠ .error (.tokenError message) := by
  unfold intOfFloat
  split_ifs
  · simp
  · simp
  · split <;> simp

theorem intOf_ne (v : JsonValue) (message : String) : intOf v ≠ .error (.tokenError message) := by
  cases v with
  | float text => exact intOfFloat_ne text message
  | str s => simp only [intOf]; split <;> simp
  | bool b => simp [intOf]
  | int n => simp [intOf]
  | null => simp [intOf]
  | arr l => simp [intOf]
  | obj l => simp [intOf]

theorem strOf_ne (python : Interpreter) (v : JsonValue) (message : String) :
    strOf python v ≠ .error (.tokenError message) := by
  cases v with
  | null => simp [strOf]
  | bool b => simp [strOf]
  | int n => simp [strOf]
  | str s => simp [strOf]
  | float text => simp only [strOf]; split <;> simp
  | arr l => simp only [strOf]; split <;> simp
  | obj l => simp only [strOf]; split <;> simp

theorem frozenset_ne (v : JsonValue) (message : String) : frozenset v ≠ .error (.tokenError message) := by
  cases v with
  | arr l => simp only [frozenset]; split <;> simp
  | null => simp [frozenset]
  | bool b => simp [frozenset]
  | int n => simp [frozenset]
  | float text => simp [frozenset]
  | str s => simp [frozenset]
  | obj l => simp [frozenset]

theorem handled_intOf {v : JsonValue} : Handled (intOf v) ↔ ∃ n, intOf v = .ok n := handled_iff_ok (intOf_ne v)

theorem handled_strOf {python : Interpreter} {v : JsonValue} : Handled (strOf python v) ↔ ∃ s, strOf python v = .ok s :=
  handled_iff_ok (strOf_ne python v)

theorem handled_frozenset {v : JsonValue} : Handled (frozenset v) ↔ ∃ l, frozenset v = .ok l :=
  handled_iff_ok (frozenset_ne v)

/-- What the payload says can be read. -/
structure Legible (python : Interpreter) (payload : Data) : Prop where
  subject : ∃ s, strOf python (get payload "sub" (.str "")) = .ok s
  permissions : ∃ l, frozenset (get payload "permissions" (.arr [])) = .ok l
  tokenType : ∃ s, strOf python (get payload "type" (.str "")) = .ok s
  issuedAt : ∃ n, intOf (get payload "iat" (.int 0)) = .ok n
  expiresAt : ∃ n, intOf (get payload "exp" (.int 0)) = .ok n
  jti : ∃ s, strOf python (get payload "jti" (.str "")) = .ok s

theorem handled_payloadOf {python : Interpreter} {payload : Data} :
    Handled (payloadOf python payload) ↔ Legible python payload := by
  unfold payloadOf
  simp only [handled_bind, handled_strOf, handled_intOf, handled_frozenset]
  constructor
  · rintro ⟨hsub, h⟩
    obtain ⟨s, hs⟩ := hsub
    obtain ⟨⟨l, hl⟩, h⟩ := h s hs
    obtain ⟨⟨t, ht⟩, h⟩ := h l hl
    obtain ⟨⟨i, hi⟩, h⟩ := h t ht
    obtain ⟨⟨n, hn⟩, h⟩ := h i hi
    exact ⟨⟨s, hs⟩, ⟨l, hl⟩, ⟨t, ht⟩, ⟨i, hi⟩, ⟨n, hn⟩, (h n hn).1⟩
  · intro h
    refine ⟨h.subject, fun _ _ => ⟨h.permissions, fun _ _ => ⟨h.tokenType, fun _ _ => ⟨h.issuedAt, fun _ _ =>
      ⟨h.expiresAt, fun _ _ => ⟨h.jti, fun _ _ => handled_ok _⟩⟩⟩⟩⟩⟩

/-- The claims pass the checks. -/
structure Accepted (a : DecodeArgs) (now : ℤ) (payload : Data) : Prop where
  expiry : ∃ n, intOf (get payload "exp" (.int 0)) = .ok n ∧ now < n
  issuer : isText a.issuer (get payload "iss" .null) = true
  audience : isText a.audience (get payload "aud" .null) = true
  tokenType : ∀ t ∈ a.expectedType, isText t (get payload "type" .null) = true

/-- The header is an object; with the right algorithm the payload is one whose expiry is a number, and where its claims pass
the checks the rest of it can be read as well. -/
def Readable (python : Interpreter) (a : DecodeArgs) (now : ℤ) (header payload : JsonValue) : Prop :=
  ∃ h, header = .obj h ∧ (isText algorithm (get h "alg" .null) = true →
    ∃ p, payload = .obj p ∧ (∃ n, intOf (get p "exp" (.int 0)) = .ok n) ∧ (Accepted a now p → Legible python p))

theorem fields_eq_ok {v : JsonValue} {l : Data} : fields v = .ok l ↔ v = .obj l := by
  cases v <;> simp [fields]

theorem handled_fields {v : JsonValue} : Handled (fields v) ↔ ∃ l, v = .obj l := by
  have hne : ∀ message, fields v ≠ .error (.tokenError message) := by
    intro message
    cases v <;> simp [fields]
  rw [handled_iff_ok hne]
  simp only [fields_eq_ok]

theorem handled_checkClaims {python : Interpreter} {a : DecodeArgs} {now : ℤ} {header payload : JsonValue} :
    Handled (checkClaims python a now header payload) ↔ Readable python a now header payload := by
  unfold checkClaims Readable
  rw [handled_bind, handled_fields]
  constructor
  · rintro ⟨⟨h, rfl⟩, hrest⟩
    have hrest := hrest h rfl
    rw [handled_raiseIf, Bool.not_eq_false, handled_bind, handled_fields] at hrest
    refine ⟨h, rfl, fun halg => ?_⟩
    obtain ⟨⟨p, rfl⟩, hclaims⟩ := hrest halg
    have hclaims := hclaims p rfl
    rw [handled_bind, handled_intOf] at hclaims
    obtain ⟨hexpiry, hchecks⟩ := hclaims
    refine ⟨p, rfl, hexpiry, fun haccepted => ?_⟩
    obtain ⟨n, hn, hnow⟩ := haccepted.expiry
    have hchecks := hchecks n hn
    simp only [handled_raiseIf, handled_payloadOf, not_le, Bool.not_eq_false] at hchecks
    refine hchecks hnow haccepted.issuer haccepted.audience ?_
    rintro ⟨t, ht, hfalse⟩
    rw [haccepted.tokenType t ht] at hfalse
    cases hfalse
  · rintro ⟨h, rfl, hreadable⟩
    refine ⟨⟨h, rfl⟩, fun h' hh' => ?_⟩
    rw [fields_eq_ok, JsonValue.obj.injEq] at hh'
    subst hh'
    rw [handled_raiseIf, Bool.not_eq_false, handled_bind, handled_fields]
    intro halg
    obtain ⟨p, rfl, hexpiry, hlegible⟩ := hreadable halg
    refine ⟨⟨p, rfl⟩, fun p' hp' => ?_⟩
    rw [fields_eq_ok, JsonValue.obj.injEq] at hp'
    subst hp'
    rw [handled_bind, handled_intOf]
    refine ⟨hexpiry, fun n hn => ?_⟩
    simp only [handled_raiseIf, handled_payloadOf, not_le, Bool.not_eq_false]
    intro hnow hissuer haudience htype
    refine hlegible ⟨⟨n, hn, hnow⟩, hissuer, haudience, fun t ht => ?_⟩
    by_contra hfalse
    exact htype ⟨t, ht, by simpa using hfalse⟩

/-! ### The parts of a text -/

/-- The text that a part stands for. -/
def Stands (part : List Char) (text : String) : Prop :=
  ∃ bytes, b64urlDecode part = some bytes ∧ JsonRead.decodeBytes bytes = some text

theorem Stands.unique {part : List Char} {text text' : String} (h : Stands part text) (h' : Stands part text') :
    text = text' := by
  obtain ⟨bytes, hbytes, htext⟩ := h
  obtain ⟨bytes', hbytes', htext'⟩ := h'
  obtain rfl := Option.some.inj (hbytes.symm.trans hbytes')
  exact Option.some.inj (htext.symm.trans htext')

/-- The text of a part has an array or an object on a level that the interpreter does not read. -/
def TooDeep (python : Interpreter) (part : List Char) : Prop :=
  ∃ text, Stands part text ∧ JsonRead.TooDeep python.levels text

/-- The text of a part is JSON of a value. -/
def Reads (python : Interpreter) (part : List Char) (v : JsonValue) : Prop :=
  ∃ text, Stands part text ∧ JsonRead.loads python.levels text = .ok v

/-- What a part is read as. -/
theorem readPart_of_stands {python : Interpreter} {part : List Char} {text : String} (h : Stands part text) :
    readPart python part = caught (JsonRead.loads python.levels text) := by
  obtain ⟨bytes, hbytes, htext⟩ := h
  simp only [readPart, hbytes, loadsBytes, htext]

theorem readPart_of_not_stands {python : Interpreter} {part : List Char} (h : ∀ text, ¬ Stands part text) :
    readPart python part = .error (.tokenError "invalid token encoding") := by
  unfold readPart
  cases hbytes : b64urlDecode part with
  | none => rfl
  | some bytes =>
    cases htext : JsonRead.decodeBytes bytes with
    | none => simp only [loadsBytes, htext, caught]
    | some text => exact absurd ⟨bytes, hbytes, htext⟩ (h text)

theorem readPart_eq_ok {python : Interpreter} {part : List Char} {v : JsonValue} :
    readPart python part = .ok v ↔ Reads python part v := by
  by_cases h : ∃ text, Stands part text
  · obtain ⟨text, htext⟩ := h
    rw [readPart_of_stands htext]
    constructor
    · intro hv
      refine ⟨text, htext, ?_⟩
      cases hloads : JsonRead.loads python.levels text with
      | ok w =>
        rw [hloads] at hv
        cases hv
        rfl
      | error e =>
        rw [hloads] at hv
        cases e <;> cases hv
    · rintro ⟨text', htext', hv⟩
      rw [htext.unique htext', hv]
      rfl
  · rw [readPart_of_not_stands fun text htext => h ⟨text, htext⟩]
    constructor
    · intro hv
      cases hv
    · rintro ⟨text, htext, -⟩
      exact absurd ⟨text, htext⟩ h

theorem handled_readPart {python : Interpreter} {part : List Char} :
    Handled (readPart python part) ↔ ¬ TooDeep python part := by
  by_cases h : ∃ text, Stands part text
  · obtain ⟨text, htext⟩ := h
    have hdeep : TooDeep python part ↔ JsonRead.loads python.levels text = .error .recursion := by
      rw [JsonRead.loads_eq_recursion]
      refine ⟨?_, fun hdeep => ⟨text, htext, hdeep⟩⟩
      rintro ⟨text', htext', hdeep⟩
      rwa [htext.unique htext']
    rw [readPart_of_stands htext, hdeep]
    cases hloads : JsonRead.loads python.levels text with
    | ok v => exact ⟨fun _ => by simp, fun _ => handled_ok v⟩
    | error e =>
      cases e with
      | decode => exact ⟨fun _ => by simp, fun _ => handled_tokenError _⟩
      | digits => exact ⟨fun _ => by simp, fun _ => handled_tokenError _⟩
      | recursion =>
        refine ⟨fun hraised => ?_, fun hne => absurd rfl hne⟩
        obtain ⟨message, hm⟩ := hraised _ rfl
        cases hm
  · rw [readPart_of_not_stands fun text htext => h ⟨text, htext⟩]
    refine ⟨fun _ => ?_, fun _ => handled_tokenError _⟩
    rintro ⟨text, htext, -⟩
    exact h ⟨text, htext⟩

theorem isAscii_append {s t : List Char} : isAscii (s ++ t) = true ↔ isAscii s = true ∧ isAscii t = true := by
  rw [isAscii, List.all_append, Bool.and_eq_true]
  rfl

theorem isAscii_iff {s : List Char} : isAscii s = true ↔ ∀ c ∈ s, c.toNat < 128 := by
  simp [isAscii]

theorem isAscii_b64urlEncode (data : List ℕ) : isAscii (b64urlEncode data) = true :=
  isAscii_iff.mpr fun _ hc => (Base64.mem_unpadded hc).1

/-- The texts on which nothing but a `TokenError` is raised: where there are three parts they are ASCII, and where the
signature is right both are read without going too deep and say what can be read. -/
def Benign (python : Interpreter) (a : DecodeArgs) (now : ℤ) (token : String) : Prop :=
  ∀ headerB64 payloadB64 signed : List Char, token.toList.splitOn '.' = [headerB64, payloadB64, signed] →
    (∀ c ∈ headerB64 ++ payloadB64 ++ signed, c.toNat < 128) ∧
    (signed = signature headerB64 payloadB64 a.secret →
      ¬ TooDeep python headerB64 ∧ ∀ header, Reads python headerB64 header →
        ¬ TooDeep python payloadB64 ∧ ∀ payload, Reads python payloadB64 payload → Readable python a now header payload)

/-- A check that raises something else than a `TokenError`. -/
theorem handled_unless {α : Type} {p : Prop} [Decidable p] {e : Raised} (he : ∀ message, e ≠ .tokenError message)
    {x : Except Raised α} : Handled (raiseIf p e >>= fun _ => x) ↔ ¬p ∧ Handled x := by
  unfold raiseIf
  split_ifs with hp
  · refine ⟨fun h => ?_, fun h => absurd hp h.1⟩
    obtain ⟨message, hm⟩ := h e rfl
    exact absurd hm (he message)
  · exact ⟨fun h => ⟨hp, h⟩, fun h => h.2⟩

/-- The checks of the parts, one after the other. -/
theorem decodeParts_eq (python : Interpreter) (a : DecodeArgs) (now : ℤ) (headerB64 payloadB64 signed : List Char) :
    decodeParts python a now headerB64 payloadB64 signed =
      (raiseIf (isAscii (headerB64 ++ payloadB64) = false) .unicodeEncodeError >>= fun _ =>
        raiseIf (isAscii (signed ++ signature headerB64 payloadB64 a.secret) = false) .typeError >>= fun _ =>
          raiseIf ((signed == signature headerB64 payloadB64 a.secret) = false) (.tokenError "invalid signature") >>= fun _ =>
            readPart python headerB64 >>= fun header => readPart python payloadB64 >>= fun payload =>
              checkClaims python a now header payload) := by
  unfold decodeParts sign compareDigest
  simp only [bind_assoc, pure_bind]

theorem handled_decodeParts {python : Interpreter} {a : DecodeArgs} {now : ℤ} {headerB64 payloadB64 signed : List Char} :
    Handled (decodeParts python a now headerB64 payloadB64 signed) ↔
      (∀ c ∈ headerB64 ++ payloadB64 ++ signed, c.toNat < 128) ∧
      (signed = signature headerB64 payloadB64 a.secret →
        ¬ TooDeep python headerB64 ∧ ∀ header, Reads python headerB64 header → ¬ TooDeep python payloadB64 ∧
          ∀ payload, Reads python payloadB64 payload → Readable python a now header payload) := by
  have hsignature : isAscii (signature headerB64 payloadB64 a.secret) = true := isAscii_b64urlEncode _
  rw [decodeParts_eq, handled_unless (by simp), handled_unless (by simp), handled_raiseIf, handled_bind, handled_readPart,
    Bool.not_eq_false, Bool.not_eq_false, Bool.not_eq_false, beq_iff_eq, isAscii_append (s := signed), ← and_assoc,
    and_iff_left hsignature, ← isAscii_append, isAscii_iff]
  simp only [handled_bind, handled_readPart, handled_checkClaims, readPart_eq_ok]

/-- **The texts on which it returns or raises a `TokenError`.** -/
theorem handled_iff {python : Interpreter} {a : DecodeArgs} {now : ℤ} {token : String} :
    Handled (decodeToken python a now token) ↔ Benign python a now token := by
  unfold decodeToken Benign
  split
  · next headerB64 payloadB64 signed hsplit =>
    rw [handled_decodeParts]
    constructor
    · intro h h' p' s' heq
      rw [hsplit] at heq
      simp only [List.cons.injEq, and_true] at heq
      obtain ⟨rfl, rfl, rfl⟩ := heq
      exact h
    · intro h
      exact h _ _ _ hsplit
  · next hne =>
    exact ⟨fun _ h p s heq => absurd heq (hne h p s), fun _ => handled_tokenError _⟩

/-! ### Tokens that `create_token` made -/

theorem spaced_compact : JsonRead.Spaced .compact where
  item := ⟨[], by decide, fun _ h => absurd h List.not_mem_nil⟩
  key := ⟨[], by decide, fun _ h => absurd h List.not_mem_nil⟩

theorem plain_compact : JsonRead.PlainSeparators .compact where
  item := by simp [JsonRead.Plain, Separators.compact]
  key := by simp [JsonRead.Plain, Separators.compact]

/-- **A written part is read.** -/
theorem reads_encodePart {python : Interpreter} {n : ℕ} {j : Json} (hj : JsonRead.Sized n j) (hn : n ≤ python.levels) :
    readPart python (encodePart j) = .ok (JsonRead.valueOf j) := by
  have hplain : JsonRead.Plain (j.dumps .compact).toList := by
    rw [Json.dumps, String.toList_ofList]
    exact JsonRead.plain_chars plain_compact j
  have hbytes : utf8 (j.dumps .compact) = (j.dumps .compact).toList.map Char.toNat := by
    have h := utf8_ascii fun c hc => (hplain c hc).2
    rwa [String.ofList_toList] at h
  have hlt : ∀ b ∈ (j.dumps .compact).toList.map Char.toNat, b < 256 := by
    intro b hb
    obtain ⟨c, hc, rfl⟩ := List.mem_map.mp hb
    have hascii := (hplain c hc).2
    omega
  have hdecode : b64urlDecode (encodePart j) = some ((j.dumps .compact).toList.map Char.toNat) := by
    rw [encodePart, hbytes]
    exact Base64.decode_encode hlt
  have hread := JsonRead.loadsBytes_written spaced_compact plain_compact hj hn
  rw [readPart, hdecode]
  dsimp only
  rw [hread]
  rfl

theorem dot_notMem_b64urlEncode (data : List ℕ) : '.' ∉ b64urlEncode data := fun h => (Base64.mem_unpadded h).2.2 rfl

/-- The token of two parts with their signature. -/
def joined (headerB64 payloadB64 signed : List Char) : String :=
  String.ofList (headerB64 ++ '.' :: payloadB64 ++ '.' :: signed)

theorem splitOn_joined {headerB64 payloadB64 signed : List Char} (hheader : '.' ∉ headerB64) (hpayload : '.' ∉ payloadB64)
    (hsigned : '.' ∉ signed) :
    (joined headerB64 payloadB64 signed).toList.splitOn '.' = [headerB64, payloadB64, signed] := by
  have hchars : (joined headerB64 payloadB64 signed).toList = ['.'].intercalate [headerB64, payloadB64, signed] := by
    rw [joined, String.toList_ofList]
    simp [List.intercalate]
  rw [hchars, List.splitOn_intercalate '.' _ (by simp)]
  intro part hpart
  simp only [List.mem_cons, List.not_mem_nil, or_false] at hpart
  rcases hpart with rfl | rfl | rfl
  · exact hheader
  · exact hpayload
  · exact hsigned

theorem sign_encoded (data data' : List ℕ) (secret : String) :
    sign (b64urlEncode data) (b64urlEncode data') secret = .ok (signature (b64urlEncode data) (b64urlEncode data') secret) := by
  have hascii : isAscii (b64urlEncode data ++ b64urlEncode data') = true :=
    isAscii_append.mpr ⟨isAscii_b64urlEncode _, isAscii_b64urlEncode _⟩
  unfold sign
  rw [hascii]
  rfl

/-- **What `create_token` returns**: the parts and their signature, where both times can be written. -/
theorem createToken_eq_ok {a : CreateArgs} {now : ℤ} {jti : UUID} {token : String} :
    createToken a now jti = .ok token ↔ (digitCount now ≤ maxDigits ∧ digitCount (now + a.ttlSeconds) ≤ maxDigits) ∧
      token = joined (encodePart CreateArgs.header) (encodePart (a.payload now jti))
        (signature (encodePart CreateArgs.header) (encodePart (a.payload now jti)) a.secret) := by
  unfold createToken
  rw [bind_eq_ok]
  simp only [encodePart, sign_encoded, raiseIf_eq_ok, not_or, not_lt]
  constructor
  · rintro ⟨u, hdigits, htoken⟩
    exact ⟨hdigits, (Except.ok.inj htoken).symm⟩
  · rintro ⟨hdigits, rfl⟩
    exact ⟨(), hdigits, rfl⟩

/-- **One signature for two secrets** is one digest. -/
theorem signature_eq_iff {headerB64 payloadB64 : List Char} {secret secret' : String} :
    signature headerB64 payloadB64 secret = signature headerB64 payloadB64 secret' ↔
      Hmac.digest (utf8 secret) (signingInput headerB64 payloadB64) =
        Hmac.digest (utf8 secret') (signingInput headerB64 payloadB64) :=
  ⟨Base64.unpadded_encode_inj (fun _ h => Hmac.lt_of_mem_digest h) fun _ h => Hmac.lt_of_mem_digest h,
    fun h => congrArg b64urlEncode h⟩

theorem sized_header : JsonRead.Sized 2 CreateArgs.header := ⟨trivial, trivial, trivial⟩

theorem sized_payload (a : CreateArgs) {now : ℤ} (jti : UUID)
    (h : digitCount now ≤ maxDigits ∧ digitCount (now + a.ttlSeconds) ≤ maxDigits) :
    JsonRead.Sized 2 (a.payload now jti) := by
  have hitems : ∀ l : List String, JsonRead.SizedItems 0 (l.map .str) := by
    intro l
    induction l with
    | nil => trivial
    | cons s l ih => exact ⟨trivial, ih⟩
  exact ⟨trivial, hitems _, trivial, trivial, trivial, h.1, h.2, trivial, trivial⟩

/-- The permissions as they are written. -/
def CreateArgs.written (a : CreateArgs) : List JsonValue :=
  JsonRead.valuesOf ((a.permissions.dedup.insertionSort (· ≤ ·)).map .str)

theorem mem_written {a : CreateArgs} {v : JsonValue} : v ∈ a.written ↔ ∃ s ∈ a.permissions, v = .str s := by
  rw [CreateArgs.written, JsonRead.valuesOf_eq, List.map_map, List.mem_map]
  constructor
  · rintro ⟨s, hs, rfl⟩
    exact ⟨s, List.mem_dedup.mp ((List.mem_insertionSort _).mp hs), rfl⟩
  · rintro ⟨s, hs, rfl⟩
    exact ⟨s, (List.mem_insertionSort _).mpr (List.mem_dedup.mpr hs), rfl⟩

theorem frozenset_written (a : CreateArgs) : frozenset (.arr a.written) = .ok a.written := by
  have hall : a.written.all hashable = true := by
    rw [List.all_eq_true]
    intro v hv
    obtain ⟨s, -, rfl⟩ := mem_written.mp hv
    rfl
  exact if_pos hall

/-- The payload that a token gives back. -/
def CreateArgs.restored (a : CreateArgs) (now : ℤ) (jti : UUID) : TokenPayload :=
  ⟨a.subject, a.written, a.tokenType, now, now + a.ttlSeconds, String.ofList jti.hex⟩

/-- The verifier expects what the token says, and the token has not expired. -/
structure Admits (a : CreateArgs) (now : ℤ) (d : DecodeArgs) (now' : ℤ) : Prop where
  issuer : a.issuer = d.issuer
  audience : a.audience = d.audience
  tokenType : ∀ t ∈ d.expectedType, a.tokenType = t
  expiry : now' < now + a.ttlSeconds

section Created

variable {python : Interpreter} {a : CreateArgs} {now : ℤ} {jti : UUID} {d : DecodeArgs} {now' : ℤ}

/-- The fields of the payload. -/
def CreateArgs.data (a : CreateArgs) (now : ℤ) (jti : UUID) : Data :=
  [("sub", .str a.subject), ("permissions", .arr a.written), ("type", .str a.tokenType), ("iss", .str a.issuer),
    ("aud", .str a.audience), ("iat", .int now), ("exp", .int (now + a.ttlSeconds)), ("jti", .str (String.ofList jti.hex))]

theorem payloadOf_created : payloadOf python (a.data now jti) = .ok (a.restored now jti) := by
  show (frozenset (.arr a.written) >>= fun permissions => _) = _
  rw [frozenset_written]
  rfl

/-- The checks of a token that was made. -/
def CreateArgs.outcome (a : CreateArgs) (now : ℤ) (jti : UUID) (d : DecodeArgs) (now' : ℤ) : Except Raised TokenPayload := do
  raiseIf (now + a.ttlSeconds ≤ now') (.tokenError "expired token")
  raiseIf ((a.issuer == d.issuer) = false) (.tokenError "invalid issuer")
  raiseIf ((a.audience == d.audience) = false) (.tokenError "invalid audience")
  raiseIf (∃ t ∈ d.expectedType, (a.tokenType == t) = false) (.tokenError "invalid token type")
  return a.restored now jti

theorem checkClaims_created : checkClaims python d now' (JsonRead.valueOf CreateArgs.header)
    (JsonRead.valueOf (a.payload now jti)) = a.outcome now jti d now' := by
  have hchecks : checkClaims python d now' (JsonRead.valueOf CreateArgs.header) (JsonRead.valueOf (a.payload now jti)) =
      (raiseIf (now + a.ttlSeconds ≤ now') (.tokenError "expired token") >>= fun _ =>
        raiseIf ((a.issuer == d.issuer) = false) (.tokenError "invalid issuer") >>= fun _ =>
          raiseIf ((a.audience == d.audience) = false) (.tokenError "invalid audience") >>= fun _ =>
            raiseIf (∃ t ∈ d.expectedType, (a.tokenType == t) = false) (.tokenError "invalid token type") >>= fun _ =>
              payloadOf python (a.data now jti)) := rfl
  rw [hchecks, payloadOf_created]
  rfl

theorem outcome_eq_ok {p : TokenPayload} :
    a.outcome now jti d now' = .ok p ↔ Admits a now d now' ∧ p = a.restored now jti := by
  unfold CreateArgs.outcome
  simp only [bind_eq_ok, raiseIf_eq_ok, not_le, Bool.not_eq_false, beq_iff_eq, exists_const, not_exists, not_and]
  constructor
  · rintro ⟨hexpiry, hissuer, haudience, htype, hp⟩
    exact ⟨⟨hissuer, haudience, htype, hexpiry⟩, (Except.ok.inj hp).symm⟩
  · rintro ⟨h, rfl⟩
    exact ⟨h.expiry, h.issuer, h.audience, h.tokenType, rfl⟩

theorem outcome_expired (h : now + a.ttlSeconds ≤ now') :
    a.outcome now jti d now' = .error (.tokenError "expired token") := by
  unfold CreateArgs.outcome
  simp only [raiseIf, if_pos h]
  rfl

theorem outcome_mismatch (hexpiry : now' < now + a.ttlSeconds) (hissuer : a.issuer = d.issuer)
    (haudience : a.audience = d.audience) (h : ∃ t ∈ d.expectedType, (a.tokenType == t) = false) :
    a.outcome now jti d now' = .error (.tokenError "invalid token type") := by
  unfold CreateArgs.outcome
  simp only [raiseIf, if_neg (not_le.mpr hexpiry), hissuer, haudience, beq_self_eq_true, if_pos h]
  rfl

/-- The parts of a token that was made. -/
theorem splitOn_created : (joined (encodePart CreateArgs.header) (encodePart (a.payload now jti))
    (signature (encodePart CreateArgs.header) (encodePart (a.payload now jti)) a.secret)).toList.splitOn '.' =
      [encodePart CreateArgs.header, encodePart (a.payload now jti),
        signature (encodePart CreateArgs.header) (encodePart (a.payload now jti)) a.secret] :=
  splitOn_joined (dot_notMem_b64urlEncode _) (dot_notMem_b64urlEncode _) (dot_notMem_b64urlEncode _)

/-- **A token that was made is read**: first its signature is checked, then its claims. -/
theorem decodeToken_created {token : String} (hlevels : 2 ≤ python.levels) (hcreated : createToken a now jti = .ok token) :
    decodeToken python d now' token =
      (raiseIf ((signature (encodePart CreateArgs.header) (encodePart (a.payload now jti)) a.secret ==
        signature (encodePart CreateArgs.header) (encodePart (a.payload now jti)) d.secret) = false)
          (.tokenError "invalid signature") >>= fun _ => a.outcome now jti d now') := by
  obtain ⟨hdigits, rfl⟩ := createToken_eq_ok.mp hcreated
  have hheader : readPart python (encodePart CreateArgs.header) = .ok (JsonRead.valueOf CreateArgs.header) :=
    reads_encodePart sized_header hlevels
  have hpayload : readPart python (encodePart (a.payload now jti)) = .ok (JsonRead.valueOf (a.payload now jti)) :=
    reads_encodePart (sized_payload a jti hdigits) hlevels
  have hascii (data data' : List ℕ) : isAscii (b64urlEncode data ++ b64urlEncode data') = true :=
    isAscii_append.mpr ⟨isAscii_b64urlEncode _, isAscii_b64urlEncode _⟩
  have hparts : isAscii (encodePart CreateArgs.header ++ encodePart (a.payload now jti)) = true := hascii _ _
  have hsigned : isAscii (signature (encodePart CreateArgs.header) (encodePart (a.payload now jti)) a.secret ++
      signature (encodePart CreateArgs.header) (encodePart (a.payload now jti)) d.secret) = true := hascii _ _
  rw [decodeToken, splitOn_created]
  dsimp only
  rw [decodeParts_eq, hparts, hsigned, hheader, hpayload, ← @checkClaims_created python a now jti d now']
  rfl

/-- HMAC-SHA256 is not forged on what is signed: another key gives another digest. -/
def Unforged (secret secret' : String) (token : String) : Prop :=
  ∀ headerB64 payloadB64 signed : List Char, token.toList.splitOn '.' = [headerB64, payloadB64, signed] →
    Hmac.digest (utf8 secret) (signingInput headerB64 payloadB64) =
      Hmac.digest (utf8 secret') (signingInput headerB64 payloadB64) →
    Hmac.keyBlock (utf8 secret) = Hmac.keyBlock (utf8 secret')

/-- **What becomes of a token that was made**: it is given back where the keys are one and the verifier admits it. -/
theorem decode_created {token : String} {p : TokenPayload} (hlevels : 2 ≤ python.levels)
    (hcreated : createToken a now jti = .ok token) (hunforged : Unforged a.secret d.secret token) :
    decodeToken python d now' token = .ok p ↔
      (Hmac.keyBlock (utf8 a.secret) = Hmac.keyBlock (utf8 d.secret) ∧ Admits a now d now') ∧ p = a.restored now jti := by
  have hkeys : signature (encodePart CreateArgs.header) (encodePart (a.payload now jti)) a.secret =
      signature (encodePart CreateArgs.header) (encodePart (a.payload now jti)) d.secret ↔
        Hmac.keyBlock (utf8 a.secret) = Hmac.keyBlock (utf8 d.secret) := by
    rw [signature_eq_iff]
    rw [(createToken_eq_ok.mp hcreated).2] at hunforged
    exact ⟨hunforged _ _ _ splitOn_created, fun h => by rw [Hmac.digest, Hmac.digest, h]⟩
  rw [decodeToken_created hlevels hcreated]
  simp only [bind_eq_ok, raiseIf_eq_ok, Bool.not_eq_false, beq_iff_eq, hkeys, outcome_eq_ok, exists_const, and_assoc]

/-- **A zero after the secret** changes nothing: the verifier with the longer secret reads the token. -/
theorem read_with_zero {token : String} (hlevels : 2 ≤ python.levels) (hcreated : createToken a now jti = .ok token)
    (hshort : (utf8 a.secret).length < 64) (hsecret : d.secret = a.secret.push '\x00') (hadmits : Admits a now d now') :
    decodeToken python d now' token = .ok (a.restored now jti) := by
  have hbytes : utf8 d.secret = utf8 a.secret ++ [0] := by
    rw [hsecret, utf8, String.toList_push, List.flatMap_append, List.map_append]
    rfl
  have hkey : Hmac.keyBlock (utf8 a.secret) = Hmac.keyBlock (utf8 d.secret) := by
    rw [hbytes, Hmac.keyBlock_append_zero hshort]
  exact (decode_created hlevels hcreated fun _ _ _ _ _ => hkey).mpr ⟨⟨hkey, hadmits⟩, rfl⟩

/-- The payload says what the token was made with. -/
structure Restores (a : CreateArgs) (now : ℤ) (p : TokenPayload) : Prop where
  subject : p.subject = a.subject
  permissions : ∀ v, v ∈ p.permissions ↔ ∃ s ∈ a.permissions, v = .str s
  tokenType : p.tokenType = a.tokenType
  expiresAt : p.expiresAt = now + a.ttlSeconds

theorem restores_restored : Restores a now (a.restored now jti) := ⟨rfl, fun _ => mem_written, rfl, rfl⟩

/-- **Only the same secret reads a token**, but for two secrets with one key. -/
theorem same_secret_iff {token : String} (hlevels : 2 ≤ python.levels) (hcreated : createToken a now jti = .ok token)
    (hunforged : Unforged a.secret d.secret token) :
    (((∃ p, decodeToken python d now' token = .ok p) ↔ a.secret = d.secret ∧ Admits a now d now') ∧
        ∀ p, decodeToken python d now' token = .ok p → Restores a now p) ↔
      ¬(a.secret ≠ d.secret ∧ Hmac.keyBlock (utf8 a.secret) = Hmac.keyBlock (utf8 d.secret) ∧ Admits a now d now') := by
  have hdecode : (∃ p, decodeToken python d now' token = .ok p) ↔
      Hmac.keyBlock (utf8 a.secret) = Hmac.keyBlock (utf8 d.secret) ∧ Admits a now d now' := by
    simp only [decode_created hlevels hcreated hunforged, exists_and_left, exists_eq, and_true]
  have hrestores : ∀ p, decodeToken python d now' token = .ok p → Restores a now p := by
    intro p hp
    rw [((decode_created hlevels hcreated hunforged).mp hp).2]
    exact restores_restored
  rw [and_iff_left hrestores, hdecode]
  constructor
  · rintro hiff ⟨hne, hkey, hadmits⟩
    exact hne (hiff.mp ⟨hkey, hadmits⟩).1
  · intro hsame
    constructor
    · rintro ⟨hkey, hadmits⟩
      refine ⟨?_, hadmits⟩
      by_contra hne
      exact hsame ⟨hne, hkey, hadmits⟩
    · rintro ⟨hsecret, hadmits⟩
      exact ⟨by rw [hsecret], hadmits⟩

end Created

/-! ### The tokens of the routes -/

def typeText : TokenType → String
  | .access => "access"
  | .refresh => "refresh"

instance instTransString : IsTrans String (· ≤ ·) := inferInstance

instance instAntisymmString : Std.Antisymm fun a b : String => a ≤ b := inferInstance

/-- The arguments of a call with these settings. -/
def argsOf (settings : Settings) (secret subject : String) (permissions : Finset String) (type : TokenType)
    (ttlSeconds : ℤ) : CreateArgs :=
  ⟨subject, permissions.sort, typeText type, ttlSeconds, secret, settings.jwtIssuer, settings.jwtAudience⟩

def verifierOf (settings : Settings) (secret : String) (expectedType : Option TokenType) : DecodeArgs :=
  ⟨secret, settings.jwtIssuer, settings.jwtAudience, expectedType.map typeText⟩

/-- A payload of the routes, with its permissions in order. -/
def payloadText (p : Api.TokenPayload) : TokenPayload :=
  ⟨p.subject, p.permissions.sort.map .str, typeText p.tokenType, p.issuedAt, p.expiresAt, p.jti⟩

theorem typeText_inj {t t' : TokenType} : typeText t = typeText t' ↔ t = t' := by
  cases t <;> cases t' <;> simp [typeText]

theorem written_argsOf (settings : Settings) (secret subject : String) (permissions : Finset String) (type : TokenType)
    (ttlSeconds : ℤ) :
    (argsOf settings secret subject permissions type ttlSeconds).written = permissions.sort.map .str := by
  have hsorted : permissions.sort.dedup.insertionSort (· ≤ ·) = permissions.sort := by
    rw [(permissions.sort_nodup _).dedup]
    exact (permissions.pairwise_sort _).insertionSort_eq
  rw [CreateArgs.written, JsonRead.valuesOf_eq, List.map_map]
  exact congrArg (List.map JsonValue.str) hsorted

/-- **The tokens of the routes** are what the texts stand for: with the secret they are decoded alike. -/
theorem refines_routes {python : Interpreter} {settings : Settings} {secret subject token : String}
    {permissions : Finset String} {type : TokenType} {expectedType : Option TokenType} {ttlSeconds now now' : ℤ} {jti : UUID}
    (hlevels : 2 ≤ python.levels)
    (hcreated : createToken (argsOf settings secret subject permissions type ttlSeconds) now jti = .ok token) :
    decodeToken python (verifierOf settings secret expectedType) now' token =
      ((Api.decodeToken settings now' expectedType (.signed (Api.createToken settings subject permissions type ttlSeconds
        ⟨now, String.ofList jti.hex⟩))).map payloadText).mapError .tokenError := by
  have htype : (∃ t ∈ (verifierOf settings secret expectedType).expectedType,
      ((argsOf settings secret subject permissions type ttlSeconds).tokenType == t) = false) ↔
        expectedType ≠ none ∧ expectedType ≠ some type := by
    cases expectedType with
    | none => simp [verifierOf]
    | some t =>
      simpa [verifierOf, argsOf, typeText_inj] using ne_comm
  have hrestored : (argsOf settings secret subject permissions type ttlSeconds).restored now jti =
      payloadText ⟨subject, permissions.sort.toFinset, type, now, now + ttlSeconds, String.ofList jti.hex⟩ := by
    rw [CreateArgs.restored, written_argsOf, payloadText, Finset.sort_toFinset]
    rfl
  have hroutes : Api.decodeToken settings now' expectedType (.signed (Api.createToken settings subject permissions type
      ttlSeconds ⟨now, String.ofList jti.hex⟩)) =
        if now + ttlSeconds ≤ now' then .error "expired token"
        else if expectedType ≠ none ∧ expectedType ≠ some type then .error "invalid token type"
        else .ok ⟨subject, permissions.sort.toFinset, type, now, now + ttlSeconds, String.ofList jti.hex⟩ := by
    simp [Api.decodeToken, Api.createToken]
  rw [decodeToken_created hlevels hcreated, show (verifierOf settings secret expectedType).secret =
    (argsOf settings secret subject permissions type ttlSeconds).secret from rfl, beq_self_eq_true, hroutes]
  show CreateArgs.outcome _ now jti _ now' = _
  by_cases hexpiry : now + ttlSeconds ≤ now'
  · rw [outcome_expired hexpiry, if_pos hexpiry]
    rfl
  · rw [if_neg hexpiry]
    by_cases hmismatch : expectedType ≠ none ∧ expectedType ≠ some type
    · rw [outcome_mismatch (not_le.mp hexpiry) rfl rfl (htype.mpr hmismatch), if_pos hmismatch]
      rfl
    · have hexpected : ∀ t ∈ (verifierOf settings secret expectedType).expectedType,
          (argsOf settings secret subject permissions type ttlSeconds).tokenType = t := by
        intro t ht
        by_contra hne
        exact hmismatch (htype.mp ⟨t, ht, by simpa using hne⟩)
      rw [outcome_eq_ok.mpr ⟨⟨rfl, rfl, hexpected, not_le.mp hexpiry⟩, rfl⟩, if_neg hmismatch, hrestored]
      rfl

/-- **Errors and secrets**: the texts on which nothing but a `TokenError` is raised, and who reads a token that was made. -/
theorem tokens_iff (python : Interpreter) (d : DecodeArgs) (now' : ℤ) :
    (∀ text, ((∃ p, decodeToken python d now' text = .ok p) ∨
        ∃ message, decodeToken python d now' text = .error (.tokenError message)) ↔ Benign python d now' text) ∧
      (2 ≤ python.levels → ∀ a now jti token, createToken a now jti = .ok token → Unforged a.secret d.secret token →
        ((((∃ p, decodeToken python d now' token = .ok p) ↔ a.secret = d.secret ∧ Admits a now d now') ∧
            ∀ p, decodeToken python d now' token = .ok p → Restores a now p) ↔
          ¬(a.secret ≠ d.secret ∧ Hmac.keyBlock (utf8 a.secret) = Hmac.keyBlock (utf8 d.secret) ∧
            Admits a now d now'))) := by
  constructor
  · intro text
    rw [← handled_iff_exists, handled_iff]
  · intro hlevels a now jti token hcreated hunforged
    exact same_secret_iff hlevels hcreated hunforged

/-- The interpreter of the samples; no value of theirs has to be written. -/
def samplePython : Interpreter := ⟨1000, fun _ => none⟩

def sampleToken : CreateArgs := ⟨"trader", ["orders:write", "orders:read"], "access", 900, "top-secret", "alpha", "users"⟩

def sampleVerifier : DecodeArgs := ⟨"top-secret", "alpha", "users", some "access"⟩

theorem sample_created : createToken sampleToken 1000 ⟨7⟩ = .ok (joined (encodePart CreateArgs.header)
    (encodePart (sampleToken.payload 1000 ⟨7⟩)) (signature (encodePart CreateArgs.header)
      (encodePart (sampleToken.payload 1000 ⟨7⟩)) "top-secret")) :=
  createToken_eq_ok.mpr ⟨by decide +kernel, rfl⟩

theorem tokens_sample : (∃ token, createToken sampleToken 1000 ⟨7⟩ = .ok token ∧
      ∃ p, decodeToken samplePython sampleVerifier 1500 token = .ok p ∧ Restores sampleToken 1000 p) ∧
    ∃ message, decodeToken samplePython sampleVerifier 1500 "not-a-jwt" = .error (.tokenError message) := by
  obtain ⟨hhandled, hsecret⟩ := tokens_iff samplePython sampleVerifier 1500
  constructor
  · obtain ⟨hread, hrestores⟩ := (hsecret (by decide) sampleToken 1000 ⟨7⟩ _ sample_created fun _ _ _ _ _ => rfl).mpr
      fun h => h.1 rfl
    obtain ⟨p, hp⟩ := hread.mpr ⟨rfl, rfl, rfl, by rintro t ⟨⟩; rfl, by decide⟩
    exact ⟨_, sample_created, p, hp, hrestores p hp⟩
  · have hbenign : Benign samplePython sampleVerifier 1500 "not-a-jwt" := by
      intro headerB64 payloadB64 signed hsplit
      have hparts : "not-a-jwt".toList.splitOn '.' = ["not-a-jwt".toList] := by decide +kernel
      rw [hparts] at hsplit
      cases hsplit
    obtain ⟨p, hp⟩ | hmessage := (hhandled "not-a-jwt").mpr hbenign
    · cases hp
    · exact hmessage

/-- A header, and a signature, that are not ASCII. -/
theorem not_tokens : (¬ ((∃ p, decodeToken samplePython sampleVerifier 1500 "é.b.c" = .ok p) ∨
      ∃ message, decodeToken samplePython sampleVerifier 1500 "é.b.c" = .error (.tokenError message))) ∧
    ¬ ((∃ p, decodeToken samplePython sampleVerifier 1500 "a.b.é" = .ok p) ∨
      ∃ message, decodeToken samplePython sampleVerifier 1500 "a.b.é" = .error (.tokenError message)) := by
  have hheader : decodeToken samplePython sampleVerifier 1500 "é.b.c" = .error .unicodeEncodeError := by rfl
  have hsigned : decodeToken samplePython sampleVerifier 1500 "a.b.é" = .error .typeError := by rfl
  rw [hheader, hsigned]
  constructor
  · rintro (⟨p, hp⟩ | ⟨message, hm⟩)
    · cases hp
    · cases hm
  · rintro (⟨p, hp⟩ | ⟨message, hm⟩)
    · cases hp
    · cases hm

end AlphaAlgo.Api.Tokens
