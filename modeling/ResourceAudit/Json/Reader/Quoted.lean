import ResourceAudit.Json.Fault
import ResourceAudit.Text.Digits

/-!
# Quoted strings

A string stands between double quotes. A backslash starts an escape: a letter for one of eight
characters, or `u` and four hexadecimal digits for a unit of UTF-16, of which two may be needed.
A control character cannot stand for itself.
-/

namespace ResourceAudit.Json.Reader

/-! ## Escapes -/

def fourHex? (s : List Char) : Option (Nat × List Char) :=
  match s with
  | a :: b :: c :: d :: rest => do
    let a ← Text.hexDigit? a
    let b ← Text.hexDigit? b
    let c ← Text.hexDigit? c
    let d ← Text.hexDigit? d
    some (((a * 16 + b) * 16 + c) * 16 + d, rest)
  | _ => none

/-- Reads a unit of UTF-16. Four bytes are taken before any of them is looked at. -/
def codeUnit (s : List Char) : Except Fault (Nat × List Char) :=
  if byteCount (s.take 4) < 4 then .error (.before .stringUnfinished [])
  else
    match fourHex? s with
    | some unit => .ok unit
    | none => .error ⟨.invalidEscape, s, 4⟩

def isLeadingSurrogate (n : Nat) : Bool := 0xD800 ≤ n && n ≤ 0xDBFF

def isTrailingSurrogate (n : Nat) : Bool := 0xDC00 ≤ n && n ≤ 0xDFFF

def pairChar (leading trailing : Nat) : Char :=
  Char.ofNat ((leading - 0xD800) * 0x400 + (trailing - 0xDC00) + 0x10000)

/-- Reads the trailing surrogate that has to follow a leading one. -/
def trailingUnit (leading : Nat) (s : List Char) : Except Fault (Char × List Char) :=
  match s with
  | [] => .error (.before .stringUnfinished [])
  | '\\' :: t =>
    match t with
    | [] => .error (.before .stringUnfinished [])
    | 'u' :: r =>
      match codeUnit r with
      | .error e => .error e
      | .ok (n, rest) =>
        if isTrailingSurrogate n then .ok (pairChar leading n, rest)
        else .error (.before .loneSurrogate rest)
    | _ => .error (.behind .surrogateUnfinished t)
  | _ => .error (.behind .surrogateUnfinished s)

/-- Reads the character of an escape by number, from behind its `u`. -/
def numericEscape (s : List Char) : Except Fault (Char × List Char) :=
  match codeUnit s with
  | .error e => .error e
  | .ok (n, rest) =>
    if isTrailingSurrogate n then .error (.before .loneSurrogate rest)
    else if isLeadingSurrogate n then trailingUnit n rest
    else .ok (Char.ofNat n, rest)

/-- Reads the character of an escape, from behind its backslash. -/
def escape (s : List Char) : Except Fault (Char × List Char) :=
  match s with
  | [] => .error (.before .stringUnfinished [])
  | '"' :: r => .ok ('"', r)
  | '\\' :: r => .ok ('\\', r)
  | '/' :: r => .ok ('/', r)
  | 'b' :: r => .ok ('\x08', r)
  | 'f' :: r => .ok ('\x0c', r)
  | 'n' :: r => .ok ('\n', r)
  | 'r' :: r => .ok ('\r', r)
  | 't' :: r => .ok ('\t', r)
  | 'u' :: r => numericEscape r
  | _ => .error (.behind .invalidEscape s)

/-! ## An escape takes at least one character -/

theorem codeUnit_length_lt {s rest : List Char} {n : Nat}
    (h : codeUnit s = .ok (n, rest)) : rest.length < s.length := by
  unfold codeUnit at h
  split at h
  · simp at h
  · split at h
    · rename_i u hu
      unfold fourHex? at hu
      split at hu
      · simp only [Option.bind_eq_bind, Option.bind_eq_some_iff] at hu
        obtain ⟨_, _, _, _, _, _, _, _, hu⟩ := hu
        simp only [Option.some.injEq] at hu
        subst hu
        simp at h
        rw [← h.2]
        simp
        omega
      · simp at hu
    · simp at h

theorem trailingUnit_length_lt {leading : Nat} {s rest : List Char} {c : Char}
    (h : trailingUnit leading s = .ok (c, rest)) : rest.length < s.length := by
  unfold trailingUnit at h
  split at h
  · simp at h
  · split at h
    · simp at h
    · split at h
      · simp at h
      · rename_i hu
        have := codeUnit_length_lt hu
        split at h <;> simp at h
        rw [← h.2]
        simp
        omega
    · simp at h
  · simp at h

theorem numericEscape_length_lt {s rest : List Char} {c : Char}
    (h : numericEscape s = .ok (c, rest)) : rest.length < s.length := by
  unfold numericEscape at h
  split at h
  · simp at h
  · rename_i hu
    have hl := codeUnit_length_lt hu
    split at h
    · simp at h
    · split at h
      · exact Nat.lt_trans (trailingUnit_length_lt h) hl
      · simp at h; rw [← h.2]; exact hl

theorem escape_length_lt {s rest : List Char} {c : Char}
    (h : escape s = .ok (c, rest)) : rest.length < s.length := by
  unfold escape at h
  split at h
  case h_10 => exact Nat.lt_succ_of_lt (numericEscape_length_lt h)
  all_goals simp at h
  all_goals rw [← h.2]; simp

/-! ## Strings -/

/-- Reads a string up to its closing quote, from behind what `done` holds of it in reverse. -/
def quoted (done : List Char) (s : List Char) : Except Fault (String × List Char) :=
  match s with
  | [] => .error (.before .stringUnfinished [])
  | '"' :: r => .ok (String.ofList done.reverse, r)
  | '\\' :: r =>
    match _h : escape r with
    | .error e => .error e
    | .ok (c, rest) => quoted (c :: done) rest
  | c :: r =>
    if c.toNat < 0x20 then .error (.behind .controlCharacter s) else quoted (c :: done) r
termination_by s.length
decreasing_by
  · have := escape_length_lt _h; simp; omega
  · simp

theorem quoted_length_lt {done s rest : List Char} {t : String}
    (h : quoted done s = .ok (t, rest)) : rest.length < s.length := by
  fun_induction quoted done s with
  | case1 => simp at h
  | case2 => simp at h; rw [← h.2]; simp
  | case3 => simp at h
  | case4 done r c u hu ih =>
    have := escape_length_lt hu
    have := ih h
    simp
    omega
  | case5 => simp at h
  | case6 _ _ _ _ _ _ ih => exact Nat.lt_succ_of_lt (ih h)

end ResourceAudit.Json.Reader
