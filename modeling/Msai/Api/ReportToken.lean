import Msai.Lib.Base64
import Msai.Lib.PyDate
import Msai.Lib.PyInt
import Msai.Portfolio.Identity

namespace Msai.Api

open Msai.Lib
open Msai.Portfolio (Uuid)

/-!
# Report tokens (`services/report_signer.py`)

The URL of a report carries a token: the claims as JSON in base64, a dot, and the HMAC of the part
in front of the dot.

* `signReportToken`, `verifyReportToken` — the two functions; HMAC-SHA256 is an argument;
* `verify_sign` — what is returned for a token that was signed;
* `Crashes` — the texts for which an exception leaves that is no `InvalidReportTokenError`;
* `report_token_iff` — when a token makes the round trip, and when only that exception leaves.

A `datetime` is the number of microseconds from the epoch.
-/

/-! ### What the functions call -/

/-- What the verifier depends on. -/
structure TokenEnv where
  /-- HMAC-SHA256 of a secret and a message. -/
  hmac : String → List Char → BitVec 256
  /-- The frames that `json.loads` can still enter. -/
  frames : ℕ
  frames_pos : 0 < frames
  /-- The decimal digits beyond ASCII. -/
  wideDigit : ℕ → Option ℕ
  /-- `str` of a value that is no string; `none` is `RecursionError`. -/
  str : JsonValue → Option (List ℕ)

/-- The exceptions of `verify_report_token`. -/
inductive VerifyError
  /-- `InvalidReportTokenError`. -/
  | invalid (message : String)
  | typeError
  | recursionError
  | overflowError
  | osError
  | attributeError
deriving DecidableEq, Repr

/-- `ReportTokenClaims`. -/
structure ReportTokenClaims where
  backtestId : Uuid
  userSub : List ℕ
  /-- In seconds. -/
  expiresAt : ℤ
deriving DecidableEq, Repr

/-- The `except` around the claims. -/
def caught : VerifyError := .invalid "missing or invalid claim"

/-- `hexdigest()`. -/
def hexdigest (digest : BitVec 256) : List Char := hexPadded 64 digest.toNat

def isAscii (cs : List Char) : Bool := cs.all fun c => decide (c.toNat < 0x80)

/-! ### UUIDs -/

/-- `text.replace(p, "")`, where `skip` characters are of the last `p`. -/
def removeFrom (p : List ℕ) : ℕ → List ℕ → List ℕ
  | _, [] => []
  | skip + 1, _ :: cs => removeFrom p skip cs
  | 0, c :: cs =>
    if p.isPrefixOf (c :: cs) then removeFrom p (p.length - 1) cs else c :: removeFrom p 0 cs

/-- `text.strip("\x7b\x7d")`. -/
def stripBraces (text : List ℕ) : List ℕ :=
  (text.dropWhile fun c => c == 0x7b || c == 0x7d).rdropWhile fun c => c == 0x7b || c == 0x7d

/-- `UUID(text)`; `none` is `ValueError`. -/
def uuidText (wideDigit : ℕ → Option ℕ) (text : List ℕ) : Option Uuid :=
  let hex := removeFrom (codes "uuid:".toList) 0 (removeFrom (codes "urn:".toList) 0 text)
  let hex := (stripBraces hex).filter (· ≠ 0x2d)
  if hex.length ≠ 32 then none
  else
    (PyInt.intText wideDigit 16 hex).bind fun n =>
      if 0 ≤ n ∧ n < 2 ^ 128 then some (BitVec.ofNat 128 n.toNat) else none

/-! ### Claims -/

section Verify

variable (env : TokenEnv)

/-- `payload[key]`. -/
def claim (payload : JsonValue) (key : String) : Except VerifyError JsonValue :=
  match payload with
  | .obj fields =>
    match Dict.get fields (codes key.toList) with
    | some v => .ok v
    | none => .error caught
  -- the other values take no text as a key
  | _ => .error caught

/-- `int(x)`. -/
def intOf : JsonValue → Except VerifyError ℤ
  | .int n => .ok n
  | .bool b => .ok (if b then 1 else 0)
  | .float (.finite negative magnitude) =>
    .ok (Binary64.toInt (if negative then -magnitude else magnitude))
  | .float (.infinite _) => .error .overflowError
  | .str s =>
    match PyInt.intText env.wideDigit 10 s with
    | some n => .ok n
    | none => .error caught
  | .float .nan | .null | .arr _ | .obj _ => .error caught

/-- The seconds of the years that `gmtime` knows. -/
def inGmtime (n : ℤ) : Bool := decide (-67768040609740800 ≤ n ∧ n ≤ 67768036191676799)

/-- `datetime.fromtimestamp(n, tz=UTC)`. -/
def fromTimestamp (n : ℤ) : Except VerifyError ℤ :=
  if n < -2 ^ 63 ∨ 2 ^ 63 ≤ n then .error .overflowError
  else if !inGmtime n then .error .osError
  else if n < -62135596800 ∨ 253402300800 ≤ n then .error caught
  else .ok n

/-- `datetime.fromtimestamp(int(x), tz=UTC)`. -/
def expiryOf (x : JsonValue) : Except VerifyError ℤ := (intOf env x).bind fromTimestamp

/-- `UUID(x)`. -/
def uuidOf : JsonValue → Except VerifyError Uuid
  | .str s =>
    match uuidText env.wideDigit s with
    | some u => .ok u
    | none => .error caught
  | .null => .error caught
  -- they have no `replace`
  | _ => .error .attributeError

/-- `str(x)`. -/
def strOf : JsonValue → Except VerifyError (List ℕ)
  | .str s => .ok s
  | v =>
    match env.str v with
    | some s => .ok s
    | none => .error .recursionError

/-- The three claims. -/
def readClaims (payload : JsonValue) : Except VerifyError ReportTokenClaims :=
  (claim payload "exp").bind fun x => (expiryOf env x).bind fun exp =>
    (claim payload "backtest_id").bind fun x => (uuidOf env x).bind fun tokenBacktestId =>
      (claim payload "user_sub").bind fun x => (strOf env x).bind fun userSub =>
        .ok { backtestId := tokenBacktestId, userSub := userSub, expiresAt := exp }

/-! ### Verifying -/

/-- The first part of a token whose signature is right. -/
def signedPart (token secret : String) : Except VerifyError (List Char) :=
  if 4096 < token.length then .error (.invalid "oversized token")
  else
    match PyDate.splitOnce '.' token.toList with
    | none => .error (.invalid "malformed token")
    | some (payloadB64, sigHex) =>
      if !isAscii payloadB64 then .error (.invalid "malformed token")
      -- `compare_digest` takes texts in ASCII only
      else if !isAscii sigHex then .error .typeError
      else if hexdigest (env.hmac secret payloadB64) ≠ sigHex then
        .error (.invalid "invalid signature")
      else .ok payloadB64

/-- The payload behind its padding, as JSON. -/
def loadPayload (payloadB64 : List Char) : Except VerifyError JsonValue :=
  match Base64.decode (payloadB64 ++ Base64.padding payloadB64) with
  | none => .error (.invalid "malformed payload")
  | some bytes =>
    match JsonLoads.loads env.frames bytes with
    | .error .value => .error (.invalid "malformed payload")
    | .error .recursion => .error .recursionError
    | .ok payload => .ok payload

/-- `verify_report_token` at a time. -/
def verifyReportToken (now : ℤ) (token : String) (backtestId : Uuid) (secret : String) :
    Except VerifyError ReportTokenClaims :=
  (signedPart env token secret).bind fun payloadB64 =>
    (loadPayload env payloadB64).bind fun payload =>
      (readClaims env payload).bind fun claims =>
        if claims.expiresAt * 10 ^ 6 ≤ now then .error (.invalid "token expired")
        else if claims.backtestId ≠ backtestId then .error (.invalid "backtest_id mismatch")
        else .ok claims

/-! ### Signing -/

/-- `int(expires_at.timestamp())`: the quotient is a float. -/
def expSeconds (expiresAt : ℤ) : ℤ := Binary64.toInt (Binary64.round (expiresAt / 10 ^ 6))

/-- `json.dumps(payload, sort_keys=True, separators=(",", ":"))`. -/
def payloadText (backtestId : Uuid) (userSub : String) (expiresAt : ℤ) : List Char :=
  Json.dumps .compact (.obj
    [("backtest_id", .str backtestId.str), ("user_sub", .str userSub),
      ("exp", .num (toString (expSeconds expiresAt)))])

/-- `sign_report_token`. -/
def signReportToken (backtestId : Uuid) (userSub : String) (expiresAt : ℤ) (secret : String) :
    String :=
  let payloadB64 := Base64.rstrip (Base64.encode (codes (payloadText backtestId userSub expiresAt)))
  String.ofList (payloadB64 ++ '.' :: hexdigest (env.hmac secret payloadB64))

end Verify

/-! ### What is signed is read back -/

section RoundTrip

variable {env : TokenEnv} {backtestId : Uuid} {userSub secret : String} {expiresAt now : ℤ}

/-- A text is left alone that does not have the first character of what is removed. -/
theorem removeFrom_eq_self {p : ℕ} {ps text : List ℕ} (h : p ∉ text) :
    removeFrom (p :: ps) 0 text = text := by
  induction text with
  | nil => rfl
  | cons c text ih =>
    obtain ⟨hc, htext⟩ := not_or.mp (List.mem_cons.not.mp h)
    have hstarts : (p :: ps).isPrefixOf (c :: text) = false := by
      rw [List.isPrefixOf_cons_cons, Bool.and_eq_false_iff]
      exact Or.inl (beq_eq_false_iff_ne.mpr hc)
    rw [removeFrom, if_neg (by simp [hstarts]), ih htext]

/-- What is joined is of the parts or of the separator. -/
theorem mem_intercalate {sep : List Char} {parts : List (List Char)} {c : Char}
    (hc : c ∈ List.intercalate sep parts) : c ∈ sep ∨ ∃ part ∈ parts, c ∈ part := by
  induction parts with
  | nil => simp [List.intercalate] at hc
  | cons part parts ih =>
    cases parts with
    | nil =>
      rw [List.intercalate, List.intersperse_singleton, List.flatten_singleton] at hc
      exact Or.inr ⟨part, List.mem_singleton_self part, hc⟩
    | cons part' parts =>
      rw [List.intercalate, List.intersperse_cons_cons, List.flatten_cons, List.flatten_cons,
        List.mem_append, List.mem_append] at hc
      rcases hc with hc | hc | hc
      · exact Or.inr ⟨part, List.mem_cons_self, hc⟩
      · exact Or.inl hc
      · rcases ih hc with hc | ⟨q, hq, hc⟩
        · exact Or.inl hc
        · exact Or.inr ⟨q, List.mem_cons_of_mem _ hq, hc⟩

/-- Without the dashes between them, the parts are joined. -/
theorem filter_intercalate {parts : List (List Char)} (h : '-' ∉ parts.flatten) :
    (codes (List.intercalate ['-'] parts)).filter (· ≠ 0x2d) = codes parts.flatten := by
  have hself : ∀ {part : List Char}, '-' ∉ part →
      (codes part).filter (· ≠ 0x2d) = codes part := by
    intro part hpart
    refine List.filter_eq_self.mpr fun c hc => ?_
    obtain ⟨x, hx, rfl⟩ := List.mem_map.mp hc
    rw [decide_eq_true_eq]
    intro heq
    have hdash : x = '-' := Char.ext (UInt32.toNat_inj.mp heq)
    exact hpart (hdash ▸ hx)
  induction parts with
  | nil => rfl
  | cons part parts ih =>
    rw [List.flatten_cons, List.mem_append, not_or] at h
    obtain ⟨hpart, hparts⟩ := h
    cases parts with
    | nil =>
      have hone : List.intercalate ['-'] [part] = part := by simp [List.intercalate]
      rw [hone, List.flatten_cons, List.flatten_nil, List.append_nil]
      exact hself hpart
    | cons part' parts =>
      have htext : List.intercalate ['-'] (part :: part' :: parts) =
          part ++ ['-'] ++ List.intercalate ['-'] (part' :: parts) := by
        simp [List.intercalate]
      have hdash : (codes ['-']).filter (· ≠ 0x2d) = [] := rfl
      rw [htext, codes_append, codes_append, List.filter_append, List.filter_append, hself hpart,
        ih hparts, hdash, List.append_nil, ← codes_append]
      rfl

/-- The five parts of a UUID. -/
def uuidParts (h : List Char) : List (List Char) :=
  [h.take 8, (h.drop 8).take 4, (h.drop 12).take 4, (h.drop 16).take 4, h.drop 20]

theorem flatten_uuidParts (h : List Char) : (uuidParts h).flatten = h := by
  have h16 : (h.drop 16).take 4 ++ h.drop 20 = h.drop 16 := by
    rw [← List.drop_drop (i := 4) (j := 16), List.take_append_drop]
  have h12 : (h.drop 12).take 4 ++ h.drop 16 = h.drop 12 := by
    rw [← List.drop_drop (i := 4) (j := 12), List.take_append_drop]
  have h8 : (h.drop 8).take 4 ++ h.drop 12 = h.drop 8 := by
    rw [← List.drop_drop (i := 4) (j := 8), List.take_append_drop]
  simp only [uuidParts, List.flatten_cons, List.flatten_nil, List.append_nil]
  rw [h16, h12, h8, List.take_append_drop]

theorem mem_hexPadded_uuid {u : Uuid} {c : Char} (hc : c ∈ hexPadded 32 u.toNat) :
    ∃ d < 16, c = Nat.digitChar d :=
  mem_hexPadded (by norm_num) (u.isLt.trans_le (by norm_num)) hc

theorem str_toList (u : Uuid) :
    u.str.toList = List.intercalate ['-'] (uuidParts (hexPadded 32 u.toNat)) :=
  String.toList_ofList

/-- A UUID is digits and dashes. -/
theorem mem_str {u : Uuid} {c : Char} (hc : c ∈ u.str.toList) :
    c = '-' ∨ ∃ d < 16, c = Nat.digitChar d := by
  rw [str_toList] at hc
  rcases mem_intercalate hc with hc | ⟨part, hpart, hc⟩
  · exact Or.inl (List.mem_singleton.mp hc)
  · have hmem : c ∈ (uuidParts (hexPadded 32 u.toNat)).flatten :=
      List.mem_flatten.mpr ⟨part, hpart, hc⟩
    rw [flatten_uuidParts] at hmem
    exact Or.inr (mem_hexPadded_uuid hmem)

/-- Without its dashes a UUID is its digits. -/
theorem filter_str (u : Uuid) :
    (codes u.str.toList).filter (· ≠ 0x2d) = codes (hexPadded 32 u.toNat) := by
  have hnodash : '-' ∉ (uuidParts (hexPadded 32 u.toNat)).flatten := by
    rw [flatten_uuidParts]
    intro hmem
    obtain ⟨d, hd, hc⟩ := mem_hexPadded_uuid hmem
    interval_cases d <;> exact absurd hc (by decide)
  have hfilter := filter_intercalate hnodash
  rwa [flatten_uuidParts, ← str_toList] at hfilter

theorem stripBraces_eq_self {text : List ℕ} (h : ∀ c ∈ text, c ≠ 0x7b ∧ c ≠ 0x7d) :
    stripBraces text = text := by
  have hbrace : ∀ c ∈ text, (c == 0x7b || c == 0x7d) = false := by
    intro c hc
    simp [h c hc]
  unfold stripBraces
  rw [List.dropWhile_eq_self_iff.mpr fun hpos => by simp [hbrace _ (List.getElem_mem hpos)],
    List.rdropWhile_eq_self_iff.mpr fun hne => by simp [hbrace _ (List.getLast_mem hne)]]

/-- **A UUID is read back.** -/
theorem uuidText_str (wideDigit : ℕ → Option ℕ) (u : Uuid) :
    uuidText wideDigit (codes u.str.toList) = some u := by
  have hlt : u.toNat < 16 ^ 32 := u.isLt.trans_le (by norm_num)
  -- neither a prefix nor a brace is in the text
  have hclean : ∀ c ∈ codes u.str.toList, c ≠ 0x75 ∧ c ≠ 0x7b ∧ c ≠ 0x7d := by
    intro c hc
    obtain ⟨x, hx, rfl⟩ := List.mem_map.mp hc
    rcases mem_str hx with rfl | ⟨d, hd, rfl⟩
    · decide
    · interval_cases d <;> decide
  have hremove : ∀ ps, removeFrom (0x75 :: ps) 0 (codes u.str.toList) = codes u.str.toList :=
    fun ps => removeFrom_eq_self fun hmem => (hclean _ hmem).1 rfl
  have hlength : (codes (hexPadded 32 u.toNat)).length = 32 := by
    rw [codes, List.length_map, length_hexPadded (by norm_num) hlt]
  have hcodes : codes "urn:".toList = 0x75 :: codes "rn:".toList ∧
      codes "uuid:".toList = 0x75 :: codes "uid:".toList := ⟨rfl, rfl⟩
  unfold uuidText
  dsimp only
  rw [hcodes.1, hcodes.2, hremove, hremove, stripBraces_eq_self fun c hc => (hclean c hc).2,
    filter_str, if_neg (not_not.mpr hlength),
    PyInt.intText_hexPadded (by norm_num) hlt, Option.bind_some,
    if_pos ⟨Int.natCast_nonneg _, by exact_mod_cast u.isLt⟩, Int.toNat_natCast,
    BitVec.ofNat_toNat, BitVec.setWidth_eq]

/-- The payload as `json.loads` reads it. -/
def payloadValue (backtestId : Uuid) (userSub : String) (expiresAt : ℤ) : JsonValue :=
  .obj [(codes "backtest_id".toList, .str (codes backtestId.str.toList)),
    (codes "exp".toList, .int (expSeconds expiresAt)),
    (codes "user_sub".toList, .str (codes userSub.toList))]

/-- The fields of the payload, by their keys. -/
def payloadFields (backtestId : Uuid) (userSub : String) (expiresAt : ℤ) :
    List (String × List Char × JsonValue) :=
  [("backtest_id", quoted backtestId.str, .str (codes backtestId.str.toList)),
    ("exp", (toString (expSeconds expiresAt)).toList, .int (expSeconds expiresAt)),
    ("user_sub", quoted userSub, .str (codes userSub.toList))]

theorem payloadText_eq : payloadText backtestId userSub expiresAt =
    '\x7b' :: List.intercalate [','] ((payloadFields backtestId userSub expiresAt).map fun f =>
      quoted f.1 ++ [':'] ++ f.2.1) ++ ['\x7d'] := by
  have hsorted : ∀ i s e : List Char,
      ([("backtest_id", i), ("user_sub", s), ("exp", e)] : List (String × List Char)).insertionSort
          (fun p q => p.1 ≤ q.1) = [("backtest_id", i), ("exp", e), ("user_sub", s)] := by
    intro i s e
    have huser : ¬ ("user_sub" : String) ≤ "exp" := by decide
    have hid : ("backtest_id" : String) ≤ "exp" := by decide
    simp only [List.insertionSort_cons, List.insertionSort_nil, List.orderedInsert_cons,
      List.orderedInsert_nil, huser, hid, if_true, if_false]
  simp only [payloadText, Json.dumps, Json.dumpsFields, dumpsObject, hsorted]
  rfl

/-- The keys are three. -/
theorem build_payload : Dict.build some
    ((payloadFields backtestId userSub expiresAt).map fun f => (codes f.1.toList, f.2.2)) =
      [(codes "backtest_id".toList, .str (codes backtestId.str.toList)),
        (codes "exp".toList, .int (expSeconds expiresAt)),
        (codes "user_sub".toList, .str (codes userSub.toList))] := by
  have hidExp : codes "backtest_id".toList ≠ codes "exp".toList := by decide
  have hidUser : codes "backtest_id".toList ≠ codes "user_sub".toList := by decide
  have hexpUser : codes "exp".toList ≠ codes "user_sub".toList := by decide
  simp only [payloadFields, List.map_cons, List.map_nil, Dict.build, List.foldl_cons,
    List.foldl_nil, Dict.set, if_neg hidExp, if_neg hidUser, if_neg hexpUser]

/-- It is read back as that value. -/
theorem reads_payload : JsonLoads.Reads env.frames (payloadText backtestId userSub expiresAt)
    (payloadValue backtestId userSub expiresAt) := by
  obtain ⟨k, hk⟩ := Nat.exists_eq_succ_of_ne_zero env.frames_pos.ne'
  rw [payloadText_eq, hk, payloadValue, ← build_payload]
  refine JsonLoads.reads_object fun f hf => ?_
  simp only [payloadFields, List.mem_cons, List.not_mem_nil, or_false] at hf
  rcases hf with rfl | rfl | rfl
  · exact JsonLoads.reads_quoted _
  · exact JsonLoads.reads_int _
  · exact JsonLoads.reads_quoted _

/-- An integer is written in ASCII. -/
theorem ascii_toString {z : ℤ} {c : Char} (hc : c ∈ (toString z).toList) :
    0 < c.toNat ∧ c.toNat < 0x80 := by
  rw [JsonLoads.toList_toString] at hc
  rcases List.mem_append.mp hc with hc | hc
  · split at hc
    · rw [List.mem_singleton.mp hc]
      decide
    · cases hc
  · have hvalue := JsonLoads.mem_toDigits hc
    rw [JsonLoads.isDigit, decide_eq_true_eq] at hvalue
    omega

/-- So is the payload. -/
theorem ascii_payload {c : Char} (hc : c ∈ payloadText backtestId userSub expiresAt) :
    0 < c.toNat ∧ c.toNat < 0x80 := by
  have hmember : ∀ f ∈ payloadFields backtestId userSub expiresAt,
      ∀ c ∈ quoted f.1 ++ [':'] ++ f.2.1, 0 < c.toNat ∧ c.toNat < 0x80 := by
    intro f hf c hc
    have htext : c ∈ f.2.1 → 0 < c.toNat ∧ c.toNat < 0x80 := by
      simp only [payloadFields, List.mem_cons, List.not_mem_nil, or_false] at hf
      rcases hf with rfl | rfl | rfl
      · exact JsonLoads.ascii_quoted
      · exact ascii_toString
      · exact JsonLoads.ascii_quoted
    rcases List.mem_append.mp hc with hc | hc
    · rcases List.mem_append.mp hc with hc | hc
      · exact JsonLoads.ascii_quoted hc
      · rw [List.mem_singleton.mp hc]
        decide
    · exact htext hc
  rw [payloadText_eq] at hc
  rcases List.mem_append.mp hc with hc | hc
  · rcases List.mem_cons.mp hc with rfl | hc
    · decide
    · rcases mem_intercalate hc with hc | ⟨text, htext, hc⟩
      · rw [List.mem_singleton.mp hc]
        decide
      · obtain ⟨f, hf, rfl⟩ := List.mem_map.mp htext
        exact hmember f hf c hc
  · rw [List.mem_singleton.mp hc]
    decide

/-- The first part of a token. -/
def payloadCode (backtestId : Uuid) (userSub : String) (expiresAt : ℤ) : List Char :=
  Base64.unpadded (codes (payloadText backtestId userSub expiresAt))

theorem codes_payload_lt : ∀ b ∈ codes (payloadText backtestId userSub expiresAt), b < 256 := by
  intro b hb
  obtain ⟨c, hc, rfl⟩ := List.mem_map.mp hb
  have hascii := ascii_payload hc
  omega

theorem signReportToken_eq : signReportToken env backtestId userSub expiresAt secret =
    String.ofList (payloadCode backtestId userSub expiresAt ++ '.' ::
      hexdigest (env.hmac secret (payloadCode backtestId userSub expiresAt))) := by
  unfold signReportToken payloadCode
  dsimp only
  rw [Base64.rstrip_encode codes_payload_lt]

/-- The signature of a token that was signed is right. -/
theorem signedPart_sign
    (hlength : (signReportToken env backtestId userSub expiresAt secret).length ≤ 4096) :
    signedPart env (signReportToken env backtestId userSub expiresAt secret) secret =
      .ok (payloadCode backtestId userSub expiresAt) := by
  have hcode : ∀ c ∈ payloadCode backtestId userSub expiresAt, c.toNat < 128 ∧ c ≠ '.' := by
    intro c hc
    obtain ⟨n, hn, rfl⟩ := Base64.mem_unpadded codes_payload_lt hc
    exact Base64.digit_range hn
  have hsig : ∀ digest, isAscii (hexdigest digest) = true := by
    intro digest
    rw [isAscii, List.all_eq_true]
    intro c hc
    obtain ⟨d, hd, rfl⟩ := mem_hexPadded (by norm_num) (digest.isLt.trans_le (by norm_num)) hc
    interval_cases d <;> rfl
  have hascii : isAscii (payloadCode backtestId userSub expiresAt) = true := by
    rw [isAscii, List.all_eq_true]
    exact fun c hc => decide_eq_true (hcode c hc).1
  have hdot : '.' ∉ payloadCode backtestId userSub expiresAt := fun hmem => (hcode '.' hmem).2 rfl
  rw [signedPart, if_neg (not_lt.mpr hlength), signReportToken_eq, String.toList_ofList,
    PyDate.splitOnce_append hdot]
  simp only [hascii, hsig, Bool.not_true, Bool.false_eq_true, if_false, ne_eq, not_true_eq_false]

theorem loadPayload_code : loadPayload env (payloadCode backtestId userSub expiresAt) =
    .ok (payloadValue backtestId userSub expiresAt) := by
  rw [loadPayload, payloadCode, Base64.decode_pad codes_payload_lt]
  dsimp only
  rw [JsonLoads.loads_codes reads_payload fun c hc => ascii_payload hc]

/-- The three values of the payload. -/
theorem claim_payload (backtestId : Uuid) (userSub : String) (expiresAt : ℤ) :
    claim (payloadValue backtestId userSub expiresAt) "exp" = .ok (.int (expSeconds expiresAt)) ∧
      claim (payloadValue backtestId userSub expiresAt) "backtest_id" =
        .ok (.str (codes backtestId.str.toList)) ∧
      claim (payloadValue backtestId userSub expiresAt) "user_sub" =
        .ok (.str (codes userSub.toList)) := by
  have hidExp : codes "backtest_id".toList ≠ codes "exp".toList := by decide
  have hidUser : codes "backtest_id".toList ≠ codes "user_sub".toList := by decide
  have hexpUser : codes "exp".toList ≠ codes "user_sub".toList := by decide
  refine ⟨?_, ?_, ?_⟩
  · simp only [claim, payloadValue, Dict.get, if_neg hidExp, if_true]
  · simp only [claim, payloadValue, Dict.get, if_true]
  · simp only [claim, payloadValue, Dict.get, if_neg hidUser, if_neg hexpUser, if_true]

/-- The claims that are read from a payload. -/
theorem readClaims_payload : readClaims env (payloadValue backtestId userSub expiresAt) =
    (fromTimestamp (expSeconds expiresAt)).map fun exp =>
      { backtestId := backtestId, userSub := codes userSub.toList, expiresAt := exp } := by
  obtain ⟨hexp, hid, huser⟩ := claim_payload backtestId userSub expiresAt
  have huuid : uuidOf env (.str (codes backtestId.str.toList)) = .ok backtestId := by
    rw [uuidOf, uuidText_str]
  rw [readClaims, hexp, hid, huser]
  cases hseconds : fromTimestamp (expSeconds expiresAt) with
  | error e => simp only [Except.bind, expiryOf, intOf, hseconds, Except.map]
  | ok exp => simp only [Except.bind, expiryOf, intOf, hseconds, huuid, strOf, Except.map]

/-- **A token that was signed** is verified by its expiry alone. -/
theorem verify_sign
    (hlength : (signReportToken env backtestId userSub expiresAt secret).length ≤ 4096) :
    verifyReportToken env now (signReportToken env backtestId userSub expiresAt secret) backtestId
        secret =
      (fromTimestamp (expSeconds expiresAt)).bind fun exp =>
        if exp * 10 ^ 6 ≤ now then .error (.invalid "token expired")
        else
          .ok { backtestId := backtestId, userSub := codes userSub.toList, expiresAt := exp } := by
  simp only [verifyReportToken, signedPart_sign hlength, Except.bind, loadPayload_code,
    readClaims_payload]
  cases fromTimestamp (expSeconds expiresAt) with
  | error e => simp only [Except.map]
  | ok exp => simp only [Except.map, ne_eq, not_true_eq_false, if_false]

/-- A whole number of seconds is kept. -/
theorem expSeconds_whole {n : ℤ} (hn : 0 ≤ n) (hlt : n < 2 ^ 53) : expSeconds (n * 10 ^ 6) = n := by
  have hquotient : ((n * 10 ^ 6 : ℤ) : ℚ) / 10 ^ 6 = n := by
    push_cast
    field_simp
    norm_num
  rw [expSeconds, hquotient, Binary64.round_intCast hn hlt, Binary64.toInt,
    if_pos (Int.cast_nonneg hn), Int.floor_intCast]

end RoundTrip

/-! ### What leaves the verifier -/

section Crashes

variable {α β : Type} {env : TokenEnv} {token secret : String} {payloadB64 : List Char}

/-- An exception leaves that is no `InvalidReportTokenError`. -/
def Raises (x : Except VerifyError α) : Prop := ∃ e, x = .error e ∧ ∀ m, e ≠ .invalid m

theorem not_raises_ok {a : α} : ¬ Raises (.ok a : Except VerifyError α) := by
  rintro ⟨e, h, -⟩
  cases h

theorem not_raises_invalid {m : String} :
    ¬ Raises (.error (.invalid m) : Except VerifyError α) := by
  rintro ⟨e, h, hm⟩
  exact hm m (Except.error.inj h).symm

theorem raises_error {e : VerifyError} (h : ∀ m, e ≠ .invalid m) :
    Raises (.error e : Except VerifyError α) := ⟨e, rfl, h⟩

theorem raises_bind {x : Except VerifyError α} {f : α → Except VerifyError β} :
    Raises (x.bind f) ↔ Raises x ∨ ∃ a, x = .ok a ∧ Raises (f a) := by
  cases x with
  | error e =>
    constructor
    · rintro ⟨e', h, hm⟩
      exact Or.inl ⟨e, rfl, by rwa [Except.error.inj h]⟩
    · rintro (⟨e', h, hm⟩ | ⟨a, h, -⟩)
      · exact ⟨e, rfl, by rwa [Except.error.inj h]⟩
      · cases h
  | ok a =>
    constructor
    · intro h
      exact Or.inr ⟨a, rfl, h⟩
    · rintro (h | ⟨a', h, hraises⟩)
      · exact absurd h not_raises_ok
      · obtain rfl := Except.ok.inj h
        exact hraises

/-! #### The parts -/

/-- A token carries its HMAC behind its first dot. -/
structure Signed (env : TokenEnv) (token secret : String) (payloadB64 : List Char) : Prop where
  length : token.length ≤ 4096
  split : PyDate.splitOnce '.' token.toList =
    some (payloadB64, hexdigest (env.hmac secret payloadB64))
  ascii : isAscii payloadB64 = true

/-- A signature that is not in ASCII, behind a part that is. -/
structure WideSignature (token : String) : Prop where
  length : token.length ≤ 4096
  split : ∃ payloadB64 sigHex, PyDate.splitOnce '.' token.toList = some (payloadB64, sigHex) ∧
    isAscii payloadB64 = true ∧ isAscii sigHex = false

theorem isAscii_hexdigest (digest : BitVec 256) : isAscii (hexdigest digest) = true := by
  rw [isAscii, List.all_eq_true]
  intro c hc
  obtain ⟨d, hd, rfl⟩ := mem_hexPadded (by norm_num) (digest.isLt.trans_le (by norm_num)) hc
  interval_cases d <;> rfl

theorem signedPart_eq_ok :
    signedPart env token secret = .ok payloadB64 ↔ Signed env token secret payloadB64 := by
  constructor
  · intro h
    unfold signedPart at h
    split at h
    · cases h
    · rename_i hlength
      split at h
      · cases h
      · rename_i payload sig hsplit
        split at h
        · cases h
        · rename_i hascii
          split at h
          · cases h
          · split at h
            · cases h
            · rename_i hsig
              obtain rfl := Except.ok.inj h
              refine ⟨not_lt.mp hlength, ?_, by simpa using hascii⟩
              rw [hsplit, not_not.mp hsig]
  · intro h
    simp only [signedPart, if_neg (not_lt.mpr h.length), h.split, h.ascii, isAscii_hexdigest,
      Bool.not_true, Bool.false_eq_true, if_false, ne_eq, not_true_eq_false]

theorem raises_signedPart : Raises (signedPart env token secret) ↔ WideSignature token := by
  unfold signedPart
  split
  · rename_i hlength
    exact iff_of_false not_raises_invalid fun h => absurd h.length (not_le.mpr hlength)
  · rename_i hlength
    split
    · rename_i hsplit
      refine iff_of_false not_raises_invalid fun h => ?_
      obtain ⟨payload, sig, hparts, -⟩ := h.split
      exact absurd (hsplit.symm.trans hparts) (by simp)
    · rename_i payload sig hsplit
      have hparts : WideSignature token ↔ isAscii payload = true ∧ isAscii sig = false := by
        constructor
        · intro h
          obtain ⟨payload', sig', hsplit', hascii⟩ := h.split
          obtain ⟨rfl, rfl⟩ := Prod.mk.inj (Option.some.inj (hsplit.symm.trans hsplit'))
          exact hascii
        · intro h
          exact ⟨not_lt.mp hlength, payload, sig, hsplit, h⟩
      rw [hparts]
      split
      · rename_i hascii
        exact iff_of_false not_raises_invalid fun h => by simp [h.1] at hascii
      · rename_i hascii
        split
        · rename_i hsig
          exact iff_of_true (raises_error (by simp)) ⟨by simpa using hascii, by simpa using hsig⟩
        · rename_i hsig
          have hnot : ¬ (isAscii payload = true ∧ isAscii sig = false) := fun h => by
            simp [h.2] at hsig
          split
          · exact iff_of_false not_raises_invalid hnot
          · exact iff_of_false not_raises_ok hnot

/-- The payload is nested deeper than the frames are many. -/
def TooDeep (env : TokenEnv) (payloadB64 : List Char) : Prop :=
  ∃ bytes, Base64.decode (payloadB64 ++ Base64.padding payloadB64) = some bytes ∧
    JsonLoads.loads env.frames bytes = .error .recursion

theorem raises_loadPayload : Raises (loadPayload env payloadB64) ↔ TooDeep env payloadB64 := by
  unfold loadPayload TooDeep
  cases Base64.decode (payloadB64 ++ Base64.padding payloadB64) with
  | none => exact iff_of_false not_raises_invalid (by simp)
  | some bytes =>
    dsimp only
    cases hloads : JsonLoads.loads env.frames bytes with
    | error e =>
      cases e with
      | value =>
        refine iff_of_false not_raises_invalid ?_
        rintro ⟨b, hb, h⟩
        obtain rfl := Option.some.inj hb
        exact absurd (hloads.symm.trans h) (by simp)
      | recursion => exact iff_of_true (raises_error (by simp)) ⟨bytes, rfl, hloads⟩
    | ok v =>
      refine iff_of_false not_raises_ok ?_
      rintro ⟨b, hb, h⟩
      obtain rfl := Option.some.inj hb
      exact absurd (hloads.symm.trans h) (by simp)

theorem not_raises_claim {v : JsonValue} {key : String} : ¬ Raises (claim v key) := by
  unfold claim caught
  split
  · split
    · exact not_raises_ok
    · exact not_raises_invalid
  · exact not_raises_invalid

/-- An expiry that is infinite, or beyond the years of `gmtime`. -/
def Overflows (env : TokenEnv) (x : JsonValue) : Prop :=
  (∃ negative, x = .float (.infinite negative)) ∨ ∃ n, intOf env x = .ok n ∧ inGmtime n = false

theorem raises_expiry {x : JsonValue} :
    Raises (expiryOf env x) ↔ Overflows env x := by
  have hint : Raises (intOf env x) ↔ ∃ negative, x = .float (.infinite negative) := by
    unfold intOf caught
    split
    · exact iff_of_false not_raises_ok (by simp)
    · exact iff_of_false not_raises_ok (by simp)
    · exact iff_of_false not_raises_ok (by simp)
    · rename_i negative
      exact iff_of_true (raises_error (by simp)) ⟨negative, rfl⟩
    · split
      · exact iff_of_false not_raises_ok (by simp)
      · exact iff_of_false not_raises_invalid (by simp)
    · exact iff_of_false not_raises_invalid (by simp)
    · exact iff_of_false not_raises_invalid (by simp)
    · exact iff_of_false not_raises_invalid (by simp)
    · exact iff_of_false not_raises_invalid (by simp)
  have hstamp : ∀ n, Raises (fromTimestamp n) ↔ inGmtime n = false := by
    intro n
    unfold fromTimestamp caught
    have hgmtime : inGmtime n = false ↔ ¬ (-67768040609740800 ≤ n ∧ n ≤ 67768036191676799) :=
      decide_eq_false_iff_not
    split
    · exact iff_of_true (raises_error (by simp)) (hgmtime.mpr (by omega))
    · split
      · rename_i h
        exact iff_of_true (raises_error (by simp)) (by simpa using h)
      · rename_i h
        have hin : ¬ inGmtime n = false := by simpa using h
        split
        · exact iff_of_false not_raises_invalid hin
        · exact iff_of_false not_raises_ok hin
  rw [expiryOf, raises_bind, hint]
  simp only [hstamp]
  rfl

/-- A value that has no `replace`, and is not `None`. -/
def NoText (x : JsonValue) : Prop := x ≠ .null ∧ ∀ s, x ≠ .str s

theorem raises_uuidOf {x : JsonValue} : Raises (uuidOf env x) ↔ NoText x := by
  unfold uuidOf caught NoText
  split
  · split
    · exact iff_of_false not_raises_ok (by simp)
    · exact iff_of_false not_raises_invalid (by simp)
  · exact iff_of_false not_raises_invalid (by simp)
  · rename_i hstr hnull
    exact iff_of_true (raises_error (by simp)) ⟨hnull, hstr⟩

theorem raises_strOf {x : JsonValue} :
    Raises (strOf env x) ↔ (∀ s, x ≠ .str s) ∧ env.str x = none := by
  unfold strOf
  split
  · exact iff_of_false not_raises_ok (by simp)
  · rename_i hstr
    cases hx : env.str x with
    | none => exact iff_of_true (raises_error (by simp)) ⟨hstr, rfl⟩
    | some s => exact iff_of_false not_raises_ok (by simp)

/-! #### The whole -/

/-- **The texts that crash the verifier.** -/
inductive Crashes (env : TokenEnv) (token secret : String) : Prop
  /-- `compare_digest` is given a text that is not in ASCII. -/
  | signature (h : WideSignature token)
  | nesting (payloadB64 : List Char) (hsigned : Signed env token secret payloadB64)
      (h : TooDeep env payloadB64)
  | expiry (payloadB64 : List Char) (hsigned : Signed env token secret payloadB64)
      (payload x : JsonValue) (hload : loadPayload env payloadB64 = .ok payload)
      (hexp : claim payload "exp" = .ok x)
      (h : Overflows env x)
  /-- `backtest_id` is a number, a truth value, a list or an object. -/
  | backtestId (payloadB64 : List Char) (hsigned : Signed env token secret payloadB64)
      (payload x y : JsonValue) (exp : ℤ) (hload : loadPayload env payloadB64 = .ok payload)
      (hexp : claim payload "exp" = .ok x) (hread : expiryOf env x = .ok exp)
      (hid : claim payload "backtest_id" = .ok y) (h : NoText y)
  /-- `user_sub` is no text, and `str` of it is too deep. -/
  | userSub (payloadB64 : List Char) (hsigned : Signed env token secret payloadB64)
      (payload x y z : JsonValue) (exp : ℤ) (u : Uuid)
      (hload : loadPayload env payloadB64 = .ok payload) (hexp : claim payload "exp" = .ok x)
      (hread : expiryOf env x = .ok exp)
      (hid : claim payload "backtest_id" = .ok y) (huuid : uuidOf env y = .ok u)
      (hsub : claim payload "user_sub" = .ok z) (hstr : ∀ s, z ≠ .str s) (h : env.str z = none)

/-- The claims are read one behind the other. -/
theorem raises_readClaims {payload : JsonValue} : Raises (readClaims env payload) ↔
    ∃ x, claim payload "exp" = .ok x ∧ (Overflows env x ∨
      ∃ exp, expiryOf env x = .ok exp ∧
        ∃ y, claim payload "backtest_id" = .ok y ∧ (NoText y ∨
          ∃ u, uuidOf env y = .ok u ∧
            ∃ z, claim payload "user_sub" = .ok z ∧ (∀ s, z ≠ .str s) ∧ env.str z = none)) := by
  unfold readClaims
  simp only [raises_bind, not_raises_claim, false_or, raises_expiry, raises_uuidOf, raises_strOf,
    not_raises_ok, and_false, exists_false, or_false]

theorem raises_verify (now : ℤ) (backtestId : Uuid) :
    Raises (verifyReportToken env now token backtestId secret) ↔ Crashes env token secret := by
  have hlast : ∀ c : ReportTokenClaims, ¬ Raises (if c.expiresAt * 10 ^ 6 ≤ now then
      .error (.invalid "token expired")
    else if c.backtestId ≠ backtestId then .error (.invalid "backtest_id mismatch")
    else .ok c : Except VerifyError ReportTokenClaims) := by
    intro c
    split
    · exact not_raises_invalid
    · split
      · exact not_raises_invalid
      · exact not_raises_ok
  unfold verifyReportToken
  simp only [raises_bind, raises_signedPart, raises_loadPayload, raises_readClaims, hlast,
    and_false,
    exists_false, or_false, signedPart_eq_ok]
  constructor
  · rintro (h | ⟨code, hsigned, h | ⟨payload, hload, x, hexp, h | ⟨exp, hread, y, hid, h |
      ⟨u, huuid, z, hsub, hstr, h⟩⟩⟩⟩)
    · exact .signature h
    · exact .nesting code hsigned h
    · exact .expiry code hsigned payload x hload hexp h
    · exact .backtestId code hsigned payload x y exp hload hexp hread hid h
    · exact .userSub code hsigned payload x y z exp u hload hexp hread hid huuid hsub hstr h
  · intro h
    cases h with
    | signature h => exact Or.inl h
    | nesting code hsigned h => exact Or.inr ⟨code, hsigned, Or.inl h⟩
    | expiry code hsigned payload x hload hexp h =>
      exact Or.inr ⟨code, hsigned, Or.inr ⟨payload, hload, x, hexp, Or.inl h⟩⟩
    | backtestId code hsigned payload x y exp hload hexp hread hid h =>
      exact Or.inr ⟨code, hsigned, Or.inr ⟨payload, hload, x, hexp, Or.inr ⟨exp, hread, y, hid,
        Or.inl h⟩⟩⟩
    | userSub code hsigned payload x y z exp u hload hexp hread hid huuid hsub hstr h =>
      exact Or.inr ⟨code, hsigned, Or.inr ⟨payload, hload, x, hexp, Or.inr ⟨exp, hread, y, hid,
        Or.inr ⟨u, huuid, z, hsub, hstr, h⟩⟩⟩⟩

/-- What the verifier returns is signed, unexpired and for the backtest. -/
theorem verify_ok {now : ℤ} {backtestId : Uuid} {claims : ReportTokenClaims}
    (h : verifyReportToken env now token backtestId secret = .ok claims) :
    (∃ payloadB64, Signed env token secret payloadB64) ∧ now < claims.expiresAt * 10 ^ 6 ∧
      claims.backtestId = backtestId := by
  obtain ⟨code, hcode, h⟩ := except_bind_eq_ok h
  obtain ⟨payload, _, h⟩ := except_bind_eq_ok h
  obtain ⟨c, _, h⟩ := except_bind_eq_ok h
  split at h
  · cases h
  · rename_i hnow
    split at h
    · cases h
    · rename_i hid
      obtain rfl := Except.ok.inj h
      exact ⟨⟨code, signedPart_eq_ok.mp hcode⟩, not_le.mp hnow, not_not.mp hid⟩

/-- **A verifier that is safe**: it returns claims that are signed, unexpired and for the backtest,
    or raises `InvalidReportTokenError`. -/
def SafelyVerified (env : TokenEnv) (now : ℤ) (token : String) (backtestId : Uuid)
    (secret : String) : Prop :=
  match verifyReportToken env now token backtestId secret with
  | .ok claims => (∃ payloadB64, Signed env token secret payloadB64) ∧
      now < claims.expiresAt * 10 ^ 6 ∧ claims.backtestId = backtestId
  | .error e => ∃ message, e = .invalid message

theorem safelyVerified_iff {now : ℤ} {backtestId : Uuid} :
    SafelyVerified env now token backtestId secret ↔ ¬ Crashes env token secret := by
  rw [← raises_verify now backtestId, SafelyVerified]
  cases hverify : verifyReportToken env now token backtestId secret with
  | ok claims => exact iff_of_true (verify_ok hverify) not_raises_ok
  | error e =>
    cases e with
    | invalid m => exact iff_of_true ⟨m, rfl⟩ not_raises_invalid
    | typeError => exact iff_of_false (by simp) (not_not.mpr (raises_error (by simp)))
    | recursionError => exact iff_of_false (by simp) (not_not.mpr (raises_error (by simp)))
    | overflowError => exact iff_of_false (by simp) (not_not.mpr (raises_error (by simp)))
    | osError => exact iff_of_false (by simp) (not_not.mpr (raises_error (by simp)))
    | attributeError => exact iff_of_false (by simp) (not_not.mpr (raises_error (by simp)))

/-- **Report tokens**: a token that was signed makes the round trip where the float keeps the second
    of its expiry, and that second is still to come; and only `InvalidReportTokenError` leaves the
    verifier, unless the text is one of those that crash it. -/
theorem report_token_iff (env : TokenEnv) (now : ℤ) (backtestId : Uuid) (secret : String) :
    (∀ (userSub : String) (expiresAt : ℤ), -62135596800 * 10 ^ 6 ≤ expiresAt →
      expiresAt < 253402300800 * 10 ^ 6 → now < expiresAt →
      (signReportToken env backtestId userSub expiresAt secret).length ≤ 4096 →
        (verifyReportToken env now (signReportToken env backtestId userSub expiresAt secret)
            backtestId secret =
          .ok { backtestId := backtestId, userSub := codes userSub.toList
                expiresAt := expiresAt / 10 ^ 6 } ↔
          expSeconds expiresAt = expiresAt / 10 ^ 6 ∧ now < expiresAt / 10 ^ 6 * 10 ^ 6)) ∧
      ∀ token, SafelyVerified env now token backtestId secret ↔ ¬ Crashes env token secret := by
  refine ⟨fun userSub expiresAt hmin hmax _ hlength => ?_, fun token => safelyVerified_iff⟩
  rw [verify_sign hlength]
  constructor
  · intro h
    obtain ⟨exp, hexp, h⟩ := except_bind_eq_ok h
    have hself : exp = expSeconds expiresAt := by
      unfold fromTimestamp at hexp
      split at hexp
      · cases hexp
      · split at hexp
        · cases hexp
        · split at hexp
          · cases hexp
          · exact (Except.ok.inj hexp).symm
    split at h
    · cases h
    · rename_i hnow
      have hseconds : exp = expiresAt / 10 ^ 6 :=
        congrArg ReportTokenClaims.expiresAt (Except.ok.inj h)
      rw [← hself, ← hseconds]
      exact ⟨rfl, not_le.mp hnow⟩
  · rintro ⟨hseconds, hnow⟩
    have hrange : inGmtime (expiresAt / 10 ^ 6) = true := by
      rw [inGmtime, decide_eq_true_eq]
      omega
    have hstamp : fromTimestamp (expiresAt / 10 ^ 6) = .ok (expiresAt / 10 ^ 6) := by
      rw [fromTimestamp, if_neg (by omega), hrange, if_neg (by simp), if_neg (by omega)]
    rw [hseconds, hstamp]
    exact if_neg (not_le.mpr hnow)

/-- The HMAC of one payload under `test-secret`, with no digits beyond ASCII. -/
def oneDigest : TokenEnv where
  hmac := fun _ _ => 0xdae4070fe3889fc0bd431177760eed5522c043169cde6154ec1e69ca5f236718
  frames := 1000
  frames_pos := by norm_num
  wideDigit := fun _ => none
  str := fun _ => none

/-- A token of `alice` that expires on 1 January 2100, and a text that is no token. -/
theorem report_token_iff_alice :
    verifyReportToken oneDigest 0
        (signReportToken oneDigest 1 "alice" (4102444800 * 10 ^ 6) "test-secret") 1 "test-secret" =
      .ok { backtestId := 1, userSub := codes "alice".toList, expiresAt := 4102444800 } ∧
      SafelyVerified oneDigest 0 "not a token" 1 "test-secret" := by
  have hseconds : expSeconds (4102444800 * 10 ^ 6) = 4102444800 :=
    expSeconds_whole (by norm_num) (by norm_num)
  have hlength :
      (signReportToken oneDigest 1 "alice" (4102444800 * 10 ^ 6) "test-secret").length ≤ 4096 := by
    unfold signReportToken payloadText
    rw [hseconds]
    decide +kernel
  obtain ⟨hround, hsafe⟩ := report_token_iff oneDigest 0 1 "test-secret"
  constructor
  · exact (hround "alice" (4102444800 * 10 ^ 6) (by norm_num) (by norm_num) (by norm_num)
      hlength).mpr ⟨hseconds, by norm_num⟩
  · refine (hsafe "not a token").mpr fun h => ?_
    have hsplit : PyDate.splitOnce '.' "not a token".toList = none := by decide
    have hunsigned : ∀ code, ¬ Signed oneDigest "not a token" "test-secret" code := fun code h =>
      absurd (hsplit.symm.trans h.split) (by simp)
    cases h with
    | signature h =>
      obtain ⟨code, sig, hparts, -⟩ := h.split
      exact absurd (hsplit.symm.trans hparts) (by simp)
    | nesting code hsigned => exact hunsigned code hsigned
    | expiry code hsigned => exact hunsigned code hsigned
    | backtestId code hsigned => exact hunsigned code hsigned
    | userSub code hsigned => exact hunsigned code hsigned

/-- `é` behind the dot: `compare_digest` raises `TypeError`. -/
theorem report_token_fails :
    verifyReportToken oneDigest 0 "a.é" 1 "test-secret" = .error .typeError ∧
      ¬ SafelyVerified oneDigest 0 "a.é" 1 "test-secret" := by
  have hraises : verifyReportToken oneDigest 0 "a.é" 1 "test-secret" = .error .typeError := by
    have hpart : signedPart oneDigest "a.é" "test-secret" = .error .typeError := by decide
    rw [verifyReportToken, hpart]
    rfl
  refine ⟨hraises, ?_⟩
  rw [SafelyVerified, hraises]
  rintro ⟨message, h⟩
  cases h

end Crashes

end Msai.Api
