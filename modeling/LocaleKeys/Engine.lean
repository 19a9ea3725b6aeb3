import LocaleKeys.Catalog.Basic
import LocaleKeys.Diagnostic
import LocaleKeys.Settings.Basic
import LocaleKeys.Text.Blank

/-!
Matching usages against the catalog. Usages are classified one by one; what needs all of them, unused
and duplicate keys, is reported once at the end.
-/

namespace LocaleKeys

/-- The state of a pass: what it compares with, the compared keys of the usages so far, latest first,
and whether the pass has ended. -/
structure Engine where
  catalog : Catalog
  settings : Settings
  cultures : List Text
  used : List Text := []
  finalized : Bool := false

/-- Why a pass gives no diagnostics. -/
inductive EngineError
  | alreadyFinalized
  | cancelled
  | unwritable (f : Text.Utf8.Unwritable)
  deriving DecidableEq, Repr

def EngineError.message : EngineError → Text
  | .alreadyFinalized => "DiagnosticEngine.finalize() called twice"
  | .cancelled => "localization check was cancelled"
  | .unwritable f => f.message

namespace Engine

def start (catalog : Catalog) (settings : Settings) : Engine :=
  { catalog, settings, cultures := catalog.effectiveCultures settings.cultures }

def isBlankKey (key : Text) : Bool :=
  key.toList.all Text.isBlank

def use (engine : Engine) (compared : Text) : Engine :=
  if engine.used.contains compared then engine
  else { engine with used := compared :: engine.used }

def classify (engine : Engine) (usage : Usage) :
    Except Text.Utf8.Unwritable (Option Diagnostic) :=
  if !engine.catalog.contains usage.key then
    (Diagnostic.make .missing usage.key usage.location).map some
  else if 1 < engine.cultures.length && engine.settings.warnPartial then
    let missing := engine.catalog.missingCultures usage.key engine.cultures
    if missing.isEmpty then .ok none
    else (Diagnostic.make .partialMissing usage.key usage.location missing).map some
  else .ok none

def observe (engine : Engine) (usage : Usage) :
    Engine × Except Text.Utf8.Unwritable (Option Diagnostic) :=
  if isBlankKey usage.key then (engine, .ok none)
  else
    (engine.use (engine.catalog.normalize usage.key), engine.classify usage)

def unusedDiagnostic (engine : Engine) (key : Text) : Except Text.Utf8.Unwritable Diagnostic :=
  match engine.catalog.firstEntry key with
  | some entry => Diagnostic.make .unused key entry.location [] entry.culture
  | none => Diagnostic.make .unused key { path := "" }

/-- The diagnostics of the end of a pass: unused keys, then duplicates. -/
def endOfPass (engine : Engine) : Except Text.Utf8.Unwritable (List Diagnostic) :=
  let unused := engine.catalog.keys.filter fun key =>
    !engine.used.contains (engine.catalog.normalize key)
  match unused.mapM engine.unusedDiagnostic with
  | .error f => .error f
  | .ok unused =>
    match engine.catalog.duplicates.mapM fun d =>
        Diagnostic.make .duplicate d.key d.location [] d.culture with
    | .error f => .error f
    | .ok duplicates => .ok (unused ++ duplicates)

/-- Ends a pass. It has ended even where its diagnostics cannot be made. -/
def finalize (engine : Engine) : Engine × Except EngineError (List Diagnostic) :=
  if engine.finalized then (engine, .error .alreadyFinalized)
  else
    ({ engine with finalized := true },
      match engine.endOfPass with
      | .error f => .error (.unwritable f)
      | .ok diagnostics => .ok diagnostics)

/-- Takes usages in order and gives their diagnostics, up to one that cannot be made. -/
def observeAll (engine : Engine) :
    List Usage → Engine × Except Text.Utf8.Unwritable (List Diagnostic)
  | [] => (engine, .ok [])
  | usage :: rest =>
    match engine.observe usage with
    | (engine, .error f) => (engine, .error f)
    | (engine, .ok found) =>
      match engine.observeAll rest with
      | (engine, .error f) => (engine, .error f)
      | (engine, .ok more) => (engine, .ok (found.toList ++ more))

/-- Whether a token that fires before the usage at a position is produced has done so when that many
usages have been taken. -/
def hasFired (cancelAt : Option Nat) (taken : Nat) : Bool :=
  cancelAt.any fun i => decide (i ≤ taken)

/-- Takes the usages that are left, after a look at the token each time and once more behind the last
one, and ends the pass. The diagnostics so far are given only together with those of the end. -/
def passFrom (engine : Engine) (cancelAt : Option Nat) (taken : Nat) (staged : List Diagnostic) :
    List Usage → Engine × Except EngineError (List Diagnostic)
  | [] =>
    if hasFired cancelAt taken then (engine, .error .cancelled)
    else
      match engine.finalize with
      | (engine, .ok diagnostics) => (engine, .ok (staged ++ diagnostics))
      | (engine, .error e) => (engine, .error e)
  | usage :: rest =>
    if hasFired cancelAt taken then (engine, .error .cancelled)
    else
      match engine.observe usage with
      | (engine, .error f) => (engine, .error (.unwritable f))
      | (engine, .ok found) =>
        passFrom engine cancelAt (taken + 1) (staged ++ found.toList) rest

/-- A complete pass over usages, unless a token fires before the usage at a position is produced, or
behind the last one. -/
def analyze (engine : Engine) (usages : List Usage) (cancelAt : Option Nat := none) :
    Engine × Except EngineError (List Diagnostic) :=
  engine.passFrom cancelAt 0 [] usages

end Engine
end LocaleKeys
