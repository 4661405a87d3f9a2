import Msai.Lib.PyDate
import Msai.Lib.PySearch
import Msai.Lib.PyText

namespace Msai.Backtests

open Msai.Lib Msai.Lib.PyText Msai.Lib.PySearch

/-!
# Why a backtest has failed
(`services/backtests/classifier.py`, `derive_asset_class.py`, `failure_code.py`, `api/backtests.py`)

The worker classifies the exception that ended a backtest and stores the code with a remediation;
the API reads them back.

* `deriveAssetClassSync`, `deriveAssetClass` — the asset class of a request;
* `classifyWorkerFailure` — the columns of a failure;
* `buildErrorEnvelope` — what the API shows of them, and `parseOrUnknown_value` the round trip.

The public message, which the sanitizer makes of the raw one, is left out.
-/

/-! ### Exceptions -/

/-- What `isinstance` can tell of an exception. -/
inductive ExcClass
  | fileNotFoundError
  | timeoutError
  /-- `ImportError`, `SyntaxError`, `ModuleNotFoundError`, `NameError` -/
  | importError
  | runtimeError
  | other
deriving DecidableEq, Repr

structure Exc where
  cls : ExcClass
  /-- `__class__.__name__` -/
  name : String
  /-- `str(exc)` -/
  text : String
deriving DecidableEq, Repr

/-- `str(exc) or exc.__class__.__name__`. -/
def Exc.raw (e : Exc) : String := if e.text = "" then e.name else e.text

/-! ### The asset class -/

/-- What `str.isalnum` and `\d` say of the characters beyond ASCII. -/
structure TextEnv where
  isAlnum : Char → Bool
  isDecimal : Char → Bool

/-- `\w`. -/
def TextEnv.isWord (env : TextEnv) (c : Char) : Bool :=
  if c.toNat < 128 then c.isAlphanum || c == '_' else env.isAlnum c

/-- `\d`. -/
def TextEnv.isDigit (env : TextEnv) (c : Char) : Bool :=
  if c.toNat < 128 then c.isDigit else env.isDecimal c

/-- The patterns of a suffix: `\.OPRA$` and its like. -/
def endsIn (tail : String) (cs : List Char) : Bool :=
  matchesLine (fun body => tail.toList.isSuffixOf body) cs

/-- `^[A-Z]{1,3}[FGHJKMNQUVXZ]\d\.`. -/
def monthContract (env : TextEnv) (cs : List Char) : Bool :=
  [1, 2, 3].any fun n =>
    (cs.take n).length == n && (cs.take n).all Char.isUpper &&
      match cs.drop n with
      | code :: digit :: dot :: _ =>
        "FGHJKMNQUVXZ".toList.contains code && env.isDigit digit && dot == '.'
      | _ => false

/-- `/.+\.`. -/
def pairPattern : List Char → Option Unit
  | '/' :: rest => if '.' ∈ (rest.takeWhile (· != '\n')).drop 1 then some () else none
  | _ => none

def optionsPatterns : List (List Char → Bool) := [endsIn ".OPRA"]

def futuresPatterns (env : TextEnv) : List (List Char → Bool) :=
  [endsIn ".n.0", endsIn ".CME", endsIn ".GLBX", endsIn ".XCME", monthContract env]

def forexPatterns : List (List Char → Bool) := [fun cs => (search pairPattern cs).isSome]

def stocksPatterns : List (List Char → Bool) :=
  [endsIn ".NASDAQ", endsIn ".ARCA", endsIn ".NYSE", endsIn ".XNAS", endsIn ".BATS"]

/-- `derive_asset_class_sync`. -/
def deriveAssetClassSync (env : TextEnv) (symbols : List String) : Option String :=
  match symbols with
  | [] => none
  | first :: _ =>
    let cs := first.toList
    if optionsPatterns.any (· cs) then some "options"
    else if (futuresPatterns env).any (· cs) then some "futures"
    else if forexPatterns.any (· cs) then some "forex"
    else if stocksPatterns.any (· cs) then some "stocks"
    else none

/-- What the registry says of the first symbol. -/
inductive RegistryAnswer
  | assetClass (name : String)
  /-- No row, or one of the exceptions that are swallowed. -/
  | nothing
  | raised (e : Exc)
deriving DecidableEq, Repr

/-- `a or b` on texts. -/
def pyOr (a b : Option String) : Option String :=
  match a with
  | some text => if text = "" then b else a
  | none => b

/-- `derive_asset_class`. -/
def deriveAssetClass (env : TextEnv) (symbols : List String) :
    RegistryAnswer → Except Exc (Option String)
  | .raised e => if symbols = [] then .ok none else .error e
  | .nothing => .ok (deriveAssetClassSync env symbols)
  | .assetClass name =>
    .ok (if symbols = [] then none else pyOr (some name) (deriveAssetClassSync env symbols))

/-! ### The classifier -/

inductive FailureCode
  | missingData
  | strategyImportError
  | engineCrash
  | timeout
  | unknown
deriving DecidableEq, Repr

def FailureCode.value : FailureCode → String
  | missingData => "missing_data"
  | strategyImportError => "strategy_import_error"
  | engineCrash => "engine_crash"
  | timeout => "timeout"
  | unknown => "unknown"

def FailureCode.all : List FailureCode :=
  [missingData, strategyImportError, engineCrash, timeout, unknown]

/-- `FailureCode.parse_or_unknown`. -/
def FailureCode.parseOrUnknown (value : Option String) : FailureCode :=
  (FailureCode.all.find? fun code => some code.value = value).getD .unknown

theorem FailureCode.parseOrUnknown_value (code : FailureCode) :
    parseOrUnknown (some code.value) = code := by
  cases code <;> rfl

/-- The one kind of remediation that is built here, `ingest_data`. -/
structure Remediation where
  symbols : List String
  assetClass : Option String
  startDate : ℤ
  endDate : ℤ
  autoAvailable : Bool
deriving DecidableEq, Repr

structure FailureClassification where
  code : FailureCode
  suggestedAction : Option String
  remediation : Option Remediation
deriving DecidableEq, Repr

/-- `_MISSING_DATA_RE` at the front of a text, with its groups. -/
def missingDataMatch (cs : List Char) : Option (String × String) :=
  (after "No raw Parquet files found for '".toList cs).bind fun rest =>
    (upTo '\'' rest).bind fun (symbol, rest) =>
      (after " under /app/data/parquet/".toList rest).bind fun rest =>
        (upTo '/' rest).map fun (assetClass, _) =>
          (String.ofList symbol, String.ofList assetClass)

def importErrorTokens : List String :=
  ["ImportError", "ModuleNotFoundError", "SyntaxError", "NameError"]

/-- `_IMPORT_ERROR_TOKENS` is found. -/
def hasImportError (env : TextEnv) (text : String) : Bool :=
  importErrorTokens.any fun token => searchWord env.isWord token.toList none text.toList

/-- What a job knows of its backtest: the columns of the row, and the class in its `config`. -/
structure JobSpec where
  instruments : List String
  startDate : ℤ
  endDate : ℤ
  assetClass : String
deriving DecidableEq, Repr

/-- The command of a remediation. -/
def ingestCommand (symbols : List String) (assetClass : Option String) (startDate endDate : ℤ) :
    String :=
  match symbols, pyOr assetClass none with
  | _ :: _, some assetClass =>
    "Run: msai ingest " ++ assetClass ++ " " ++ ",".intercalate symbols ++ " " ++
      String.ofList (PyDate.isoformat startDate) ++ " " ++
      String.ofList (PyDate.isoformat endDate)
  | _, _ =>
    "Run the data ingestion pipeline for the missing symbol(s) before re-running this backtest."

/-- `classify_worker_failure`. -/
def classifyWorkerFailure (env : TextEnv) (e : Exc) (spec : JobSpec) : FailureClassification :=
  let found := search missingDataMatch e.raw.toList
  if e.cls = .fileNotFoundError ∨ found.isSome then
    let assetClass :=
      pyOr (pyOr (deriveAssetClassSync env spec.instruments) (some spec.assetClass))
        (found.map (·.2))
    let symbols :=
      if spec.instruments = [] then (found.map (·.1)).toList else spec.instruments
    ⟨.missingData, some (ingestCommand symbols assetClass spec.startDate spec.endDate),
      some ⟨symbols, assetClass, spec.startDate, spec.endDate, false⟩⟩
  else if e.cls = .timeoutError then ⟨.timeout, none, none⟩
  else if e.cls = .importError ∨ (e.cls = .runtimeError ∧ hasImportError env e.raw = true) then
    ⟨.strategyImportError, none, none⟩
  else if e.cls = .runtimeError then ⟨.engineCrash, none, none⟩
  else ⟨.unknown, none, none⟩

variable {env : TextEnv} {e : Exc} {spec : JobSpec}

/-- A text without the letter that the message starts with has no missing data in it. -/
theorem search_missingData_eq_none {cs : List Char} (h : 'N' ∉ cs) :
    search missingDataMatch cs = none := by
  refine search_eq_none (fun t b hb => ?_) h
  obtain ⟨rest, hrest, -⟩ := Option.bind_eq_some_iff.mp hb
  rw [after_eq_some hrest]
  exact List.mem_append_left _ (by decide)

theorem classify_fileNotFound (h : e.cls = .fileNotFoundError) :
    (classifyWorkerFailure env e spec).code = .missingData := by
  simp [classifyWorkerFailure, h]

theorem classify_timeout (h : e.cls = .timeoutError) (htext : 'N' ∉ e.raw.toList) :
    classifyWorkerFailure env e spec = ⟨.timeout, none, none⟩ := by
  simp [classifyWorkerFailure, h, search_missingData_eq_none htext]

theorem classify_engineCrash (h : e.cls = .runtimeError) (htext : 'N' ∉ e.raw.toList)
    (hwords : hasImportError env e.raw = false) :
    classifyWorkerFailure env e spec = ⟨.engineCrash, none, none⟩ := by
  simp [classifyWorkerFailure, h, search_missingData_eq_none htext, hwords]

/-! ### The API -/

/-- The error of a status response. -/
structure ErrorEnvelope where
  code : String
  suggestedAction : Option String
  remediation : Option Remediation
deriving DecidableEq, Repr

/-- `_build_error_envelope`. -/
def buildErrorEnvelope (isFailed : Bool) (errorCode : String) (suggestedAction : Option String)
    (remediation : Option Remediation) : Option ErrorEnvelope :=
  if isFailed then
    some ⟨(FailureCode.parseOrUnknown (some errorCode)).value, suggestedAction, remediation⟩
  else none

end Msai.Backtests
