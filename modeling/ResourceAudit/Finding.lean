import ResourceAudit.Dictionary

/-!
# Findings

A finding is the verdict of one check on one resource. Findings are ordered by resource, then by
check; `Tally` counts them by verdict.
-/

namespace ResourceAudit

/-! ## Verdicts and categories -/

/-- What a check says about a resource. It skips one of its type that it does not bear on. -/
inductive Verdict where
  | passed
  | failed
  | skipped
deriving DecidableEq, Repr

namespace Verdict

def all : List Verdict := [passed, failed, skipped]

def name : Verdict → String
  | passed => "PASSED"
  | failed => "FAILED"
  | skipped => "SKIPPED"

def rank : Verdict → Nat
  | passed => 0
  | failed => 1
  | skipped => 2

end Verdict

/-- What a check is about. -/
inductive Category where
  | networking
  | iam
  | encryption
  | logging
  | generalSecurity
  | backupAndRecovery
  | convention
deriving DecidableEq, Repr

namespace Category

def all : List Category :=
  [networking, iam, encryption, logging, generalSecurity, backupAndRecovery, convention]

def tag : Category → String
  | networking => "networking"
  | iam => "iam"
  | encryption => "encryption"
  | logging => "logging"
  | generalSecurity => "general_security"
  | backupAndRecovery => "backup_and_recovery"
  | convention => "convention"

end Category

/-! ## Findings -/

/-- The verdict of one check on one resource. A note tells why a verdict was forced. -/
structure Finding where
  checkId : String
  checkName : String
  resourceType : String
  resourceName : String
  verdict : Verdict
  category : Category
  note : Option String
deriving DecidableEq, Repr

namespace Finding

def address (f : Finding) : String := s!"{f.resourceType}.{f.resourceName}"

def isFailed (f : Finding) : Bool := f.verdict == .failed

def compareNotes : Option String → Option String → Ordering
  | none, none => .eq
  | none, some _ => .lt
  | some _, none => .gt
  | some a, some b => compare a b

/-- By type, name and check, then by verdict and note. Texts are ordered by code point. -/
def order (a b : Finding) : Ordering :=
  (compare a.resourceType b.resourceType).then <|
  (compare a.resourceName b.resourceName).then <|
  (compare a.checkId b.checkId).then <|
  (compare a.verdict.rank b.verdict.rank).then <|
  compareNotes a.note b.note

/-- Findings in order; those that the order does not tell apart stay as they stood. -/
def sort (fs : List Finding) : List Finding :=
  fs.mergeSort fun a b => (order a b).isLE

end Finding

/-! ## Tallies -/

/-- Counts by verdict, in words of 32 bits. -/
structure Tally where
  passed : UInt32
  failed : UInt32
  skipped : UInt32
deriving DecidableEq, Repr

namespace Tally

def zero : Tally := ⟨0, 0, 0⟩

def record (t : Tally) : Verdict → Tally
  | .passed => { t with passed := t.passed + 1 }
  | .failed => { t with failed := t.failed + 1 }
  | .skipped => { t with skipped := t.skipped + 1 }

def total (t : Tally) : UInt32 := t.passed + t.failed + t.skipped

def ofList (vs : List Verdict) : Tally := vs.foldl record zero

end Tally

abbrev CategoryTallies := Dictionary Tally

def CategoryTallies.record (ts : CategoryTallies) (f : Finding) : CategoryTallies :=
  ts.alter f.category.tag fun t => (t.getD .zero).record f.verdict

/-! ## Summaries -/

/-- Findings in order, with their counts. A partial summary leaves out resources that were not
reached. -/
structure Summary where
  findings : List Finding
  counts : Tally
  byCategory : CategoryTallies
  isPartial : Bool
deriving DecidableEq, Repr

namespace Summary

/-- The summary of findings, in whatever order they came. -/
def ofFindings (fs : List Finding) : Summary :=
  let sorted := Finding.sort fs
  { findings := sorted
    counts := .ofList (sorted.map (·.verdict))
    byCategory := sorted.foldl CategoryTallies.record .empty
    isPartial := false }

def passed (s : Summary) : Bool := !s.findings.any (·.isFailed)

def failures (s : Summary) : List Finding := s.findings.filter (·.isFailed)

end Summary

end ResourceAudit
