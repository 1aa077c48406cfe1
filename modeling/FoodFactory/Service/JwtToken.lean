import FoodFactory.Model.Records

/-!
# Tokens

`app/services/jwt_token_service.rb`, the scope of `app/models/jwt_blacklist.rb` and
the task of `lib/tasks/clear_expired_tokens.rake`.

The token library is a parameter (`JWT`): a way to encode a payload under a key,
and to decode a token under a key at a time in whole seconds. `JWT.Lawful` is what
its documentation says of the two: a token decodes to the payload it was made
from, unless the payload's expiry is at or before the current second.

Time is counted in nanoseconds. `Time#to_i` is whole seconds; a time in a query is
compared in microseconds, the precision of the column.
-/

namespace FoodFactory

open Store

/-- `Time#to_i`. -/
def toSeconds (t : ℕ) : ℕ := t / 1000000000

/-- A time as a query compares it, in microseconds. -/
def toMicros (t : ℕ) : ℕ := t / 1000

/-- `Time.at(seconds)`. -/
def timeAt (s : ℕ) : ℕ := s * 1000000000

/-- `24.hours`. -/
def twentyFourHours : ℕ := 86400 * 1000000000

/-- The claims of a token that the application looks at. -/
structure Payload where
  userId : Option ℕ
  jti : Option String
  exp : Option ℕ
  deriving DecidableEq

/-- Why a token is not decoded. -/
inductive JwtError where
  | expiredSignature
  | decodeError
  deriving DecidableEq

/-- The token library. -/
structure JWT where
  /-- `JWT.encode(payload, key)`. -/
  encode : Payload → String → String
  /-- `JWT.decode(token, key)[0]`, at a time in whole seconds. -/
  decode : String → String → ℕ → Except JwtError Payload

/-- What the token library promises. -/
structure JWT.Lawful (jwt : JWT) : Prop where
  /-- A token decodes to its payload until its expiry, and not from then on. -/
  decode_encode : ∀ (p : Payload) (key : String) (now e : ℕ), p.exp = some e →
    jwt.decode (jwt.encode p key) key now = if e ≤ now then .error .expiredSignature else .ok p

/-- What the application is given. -/
structure Env where
  /-- The token library. -/
  jwt : JWT
  /-- `SECRET_KEY`. -/
  secretKey : String
  /-- The values of `SecureRandom.uuid`, in the order in which they are drawn. -/
  uuid : ℕ → String
  /-- `String#downcase`. -/
  downcase : String → String
  /-- `Float#to_s`. -/
  floatToS : Binary64 → String

namespace JwtTokenService

/-- `JwtTokenService.encode(user_id: userId)`, with the identifier `SecureRandom.uuid` gave. -/
def encode (env : Env) (uuid : String) (userId exp : ℕ) : String :=
  env.jwt.encode ⟨some userId, some uuid, some (toSeconds exp)⟩ env.secretKey

/-- `JwtTokenService.blacklisted?`. -/
def blacklisted (db : DB) (jti : Option String) : Bool :=
  db.jwtBlacklists.rows.any fun r => some r.2.jti == jti

/-- `JwtTokenService.decode`. -/
def decode (env : Env) (db : DB) (now : ℕ) (token : String) : Option Payload :=
  match env.jwt.decode token env.secretKey (toSeconds now) with
  | .error _ => none
  | .ok p => if blacklisted db p.jti then none else some p

end JwtTokenService

/-- The table has a row for the identifier. -/
theorem JwtTokenService.blacklisted_eq_true {db : DB} {j : String} :
    JwtTokenService.blacklisted db (some j) = true ↔ ∃ i r, db.jwtBlacklists.find i = some r ∧ r.jti = j := by
  simp [JwtTokenService.blacklisted, Table.find_eq_some]

/-- When a token that the library made is accepted. -/
theorem JwtTokenService.decode_encode {env : Env} (h : env.jwt.Lawful) {db : DB} {now e : ℕ} {p q : Payload}
    (he : p.exp = some e) :
    JwtTokenService.decode env db now (env.jwt.encode p env.secretKey) = some q ↔
      q = p ∧ toSeconds now < e ∧ JwtTokenService.blacklisted db p.jti = false := by
  rw [JwtTokenService.decode, h.decode_encode p _ _ e he]
  split_ifs with hle
  · simp [hle]
  · dsimp only
    split_ifs with hb
    · simp [hb]
    · simp only [Option.some.injEq]
      exact ⟨fun hq => ⟨hq.symm, by omega, by simpa using hb⟩, fun hq => hq.1.symm⟩

/-- `JwtBlacklist.expired`: `where('exp < ?', Time.current)`. -/
def JwtBlacklist.expired (now : ℕ) (r : JwtBlacklist) : Bool := decide (toMicros r.exp < toMicros now)

/-- `rake jwt:clear_expired`: `JwtBlacklist.expired.delete_all`. -/
def clearExpired (now : ℕ) (db : DB) : DB :=
  { db with jwtBlacklists := db.jwtBlacklists.filter fun _ r => !r.expired now }

/-- **A purged row is of an expired token**: a row older than now, to the microsecond,
has an expiry second that is not in the future. -/
theorem le_of_expired {r : JwtBlacklist} {s now : ℕ} (hr : r.exp = timeAt s) (h : r.expired now = true) :
    s ≤ toSeconds now := by
  rw [JwtBlacklist.expired, decide_eq_true_eq, hr] at h
  unfold toMicros timeAt at h
  unfold toSeconds
  omega

/-! ### A token library

The promises can be kept: a library that writes the claims down, with numbers in binary. -/

namespace Plain

/-- The binary digits of a number, least first, up to a number of digits. -/
def toBits : ℕ → ℕ → List Char
  | 0, _ => []
  | k + 1, n => if n = 0 then [] else (if n % 2 = 0 then '0' else '1') :: toBits k (n / 2)

/-- The number with given binary digits. -/
def ofBits : List Char → ℕ
  | [] => 0
  | c :: cs => (if c = '0' then 0 else 1) + 2 * ofBits cs

theorem ofBits_toBits (k n : ℕ) (h : n ≤ k) : ofBits (toBits k n) = n := by
  induction k generalizing n with
  | zero =>
    obtain rfl : n = 0 := by omega
    rfl
  | succ k ih =>
    rw [toBits]
    split_ifs with h0 h2
    · exact h0.symm
    · rw [ofBits, if_pos rfl, ih _ (by omega)]
      omega
    · rw [ofBits, if_neg (by decide), ih _ (by omega)]
      omega

theorem toBits_ne (k n : ℕ) : ∀ c ∈ toBits k n, c ≠ ';' := by
  induction k generalizing n with
  | zero => simp [toBits]
  | succ k ih =>
    intro c hc
    rw [toBits] at hc
    split_ifs at hc with h0 h2
    · cases hc
    all_goals
      rcases List.mem_cons.mp hc with rfl | hc
      · decide
      · exact ih _ c hc

/-- A claim that is a number. -/
def writeNumber : Option ℕ → List Char
  | none => ['-']
  | some n => '+' :: (toBits n n ++ [';'])

/-- Read a claim that is a number. -/
def readNumber : List Char → Option (Option ℕ × List Char)
  | '-' :: cs => some (none, cs)
  | '+' :: cs => some (some (ofBits (cs.takeWhile (· ≠ ';'))), (cs.dropWhile (· ≠ ';')).tail)
  | _ => none

theorem readNumber_writeNumber (x : Option ℕ) (cs : List Char) : readNumber (writeNumber x ++ cs) = some (x, cs) := by
  cases x with
  | none => rfl
  | some n =>
    have htake : ((toBits n n ++ [';']) ++ cs).takeWhile (· ≠ ';') = toBits n n := by
      rw [List.append_assoc, List.takeWhile_append_of_pos fun c hc => decide_eq_true (toBits_ne n n c hc)]
      simp
    have hdrop : ((toBits n n ++ [';']) ++ cs).dropWhile (· ≠ ';') = ';' :: cs := by
      rw [List.append_assoc, List.dropWhile_append_of_pos fun c hc => decide_eq_true (toBits_ne n n c hc)]
      simp
    rw [writeNumber, List.cons_append, readNumber, htake, hdrop, ofBits_toBits n n le_rfl, List.tail_cons]

/-- Write the claims down. -/
def write (p : Payload) : List Char :=
  writeNumber p.userId ++ (writeNumber p.exp ++ match p.jti with
    | none => []
    | some s => '=' :: s.toList)

/-- Read the claims. -/
def read (cs : List Char) : Option Payload := do
  let (userId, cs) ← readNumber cs
  let (exp, cs) ← readNumber cs
  pure ⟨userId, match cs with
    | [] => none
    | _ :: cs => some (String.ofList cs), exp⟩

theorem read_write (p : Payload) : read (write p) = some p := by
  obtain ⟨userId, jti, exp⟩ := p
  unfold read write
  dsimp only
  rw [readNumber_writeNumber, Option.bind_eq_bind, Option.bind_some]
  dsimp only
  rw [readNumber_writeNumber, Option.bind_some]
  cases jti <;> simp

/-- The library. -/
def jwt : JWT where
  encode p _ := String.ofList (write p)
  decode t _ now :=
    match read t.toList with
    | none => .error .decodeError
    | some p =>
        match p.exp with
        | none => .ok p
        | some e => if e ≤ now then .error .expiredSignature else .ok p

theorem jwt_lawful : jwt.Lawful := by
  refine ⟨fun p key now e he => ?_⟩
  simp only [jwt, String.toList_ofList, read_write, he]

/-- An environment with this library. -/
def env : Env := ⟨jwt, "secret", fun n => String.ofList ('u' :: toBits n n), id, fun _ => ""⟩

end Plain

end FoodFactory
