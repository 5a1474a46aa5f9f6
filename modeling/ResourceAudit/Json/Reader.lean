import ResourceAudit.Json.Basic
import ResourceAudit.Json.Fault
import ResourceAudit.Json.Reader.Numeral
import ResourceAudit.Json.Reader.Quoted

/-!
# Reading JSON

One grammar serves every result: a `Builder` says what to make of each kind of value.
`Builder.tree` keeps the members of an object as they stand, `Builder.plain` keeps one member for
each key. Lists and objects nest at most `deepest` levels.
-/

namespace ResourceAudit.Json

/-! ## Builders -/

/-- What to make of each kind of value. -/
structure Builder (α : Type) where
  null : α
  bool : Bool → α
  number : Number → α
  string : String → α
  list : List α → α
  object : List (String × α) → α

def Builder.tree : Builder Json where
  null := .null
  bool := .bool
  number := .number
  string := .string
  list := .list
  object := .object

/-- The tree in which each member replaces an earlier one of its key. -/
def Builder.plain : Builder Json :=
  { Builder.tree with object := fun members => .object (putAll members) }

/-! ## Readers -/

/-- Takes a value off the front of the remaining text, and at least one character with it. -/
structure Reader (α : Type) where
  read : List Char → Except Fault (α × List Char)
  shortens : ∀ {s rest : List Char} {a : α}, read s = .ok (a, rest) → rest.length < s.length

namespace Reader

def skipSpace (s : List Char) : List Char := s.dropWhile isSpace

theorem length_skipSpace_le (s : List Char) : (skipSpace s).length ≤ s.length :=
  (List.dropWhile_suffix _).length_le

def word (letters s : List Char) : Except Fault (List Char) :=
  match letters, s with
  | [], s => .ok s
  | _ :: _, [] => .error (.before .valueUnfinished [])
  | l :: letters, c :: rest =>
    if c = l then word letters rest else .error (.behind .wordExpected (c :: rest))

theorem word_length_le {letters s rest : List Char} (h : word letters s = .ok rest) :
    rest.length ≤ s.length := by
  fun_induction word letters s with
  | case1 => simp at h; exact Nat.le_of_eq (by rw [h])
  | case2 => simp at h
  | case3 _ _ _ ih => exact Nat.le_succ_of_le (ih h)
  | case4 => simp at h

/-! ## Lists -/

/-- Reads the items of a list up to its closing bracket, the next item being due. -/
def items {α : Type} (item : Reader α) (done : List α) (s : List Char) :
    Except Fault (List α × List Char) :=
  match _h : item.read s with
  | .error e => .error e
  | .ok (a, t) =>
    match _hb : skipSpace t with
    | [] => .error (.behind .listUnfinished [])
    | ']' :: rest => .ok ((a :: done).reverse, rest)
    | ',' :: r =>
      match skipSpace r with
      | [] => .error (.behind .valueUnfinished [])
      | ']' :: rest => .error (.behind .trailingComma (']' :: rest))
      | _ => items item (a :: done) r
    | u => .error (.behind .listEndExpected u)
termination_by s.length
decreasing_by
  have := item.shortens _h
  have := length_skipSpace_le t
  simp [_hb] at this
  omega

theorem items_length_lt {α : Type} {item : Reader α} {done as : List α} {s rest : List Char}
    (h : items item done s = .ok (as, rest)) : rest.length < s.length := by
  fun_induction items item done s with
  | case1 => simp at h
  | case2 => simp at h
  | case3 done s a t ht u hb =>
    have := item.shortens ht
    have := length_skipSpace_le t
    simp [hb] at this
    simp at h
    rw [← h.2]
    omega
  | case4 => simp at h
  | case5 => simp at h
  | case6 done s a t ht r hb _ _ ih =>
    have := item.shortens ht
    have := length_skipSpace_le t
    simp [hb] at this
    have := ih h
    omega
  | case7 => simp at h

/-- Reads a list, from behind its opening bracket. -/
def list {α : Type} (item : Reader α) (s : List Char) : Except Fault (List α × List Char) :=
  match skipSpace s with
  | [] => .error (.behind .listUnfinished [])
  | ']' :: rest => .ok ([], rest)
  | t => items item [] t

theorem list_length_le {α : Type} {item : Reader α} {as : List α} {s rest : List Char}
    (h : list item s = .ok (as, rest)) : rest.length ≤ s.length := by
  have hs := length_skipSpace_le s
  unfold list at h
  split at h
  · simp at h
  · rename_i u hu
    simp at h
    rw [hu] at hs
    rw [← h.2]
    exact Nat.le_of_succ_le hs
  · exact Nat.le_trans (Nat.le_of_lt (items_length_lt h)) hs

/-! ## Objects -/

/-- Reads a member, from behind the opening quote of its key. -/
def member {α : Type} (value : Reader α) (s : List Char) :
    Except Fault ((String × α) × List Char) :=
  match quoted [] s with
  | .error e => .error e
  | .ok (key, t) =>
    match skipSpace t with
    | [] => .error (.behind .objectUnfinished [])
    | ':' :: r =>
      match value.read r with
      | .error e => .error e
      | .ok (a, rest) => .ok ((key, a), rest)
    | u => .error (.behind .colonExpected u)

theorem member_length_lt {α : Type} {value : Reader α} {m : String × α} {s rest : List Char}
    (h : member value s = .ok (m, rest)) : rest.length < s.length := by
  unfold member at h
  split at h
  · simp at h
  · rename_i key t hq
    have hq := quoted_length_lt hq
    have ht := length_skipSpace_le t
    split at h
    · simp at h
    · rename_i r hr
      split at h
      · simp at h
      · rename_i a u hv
        have hv := value.shortens hv
        simp at h
        rw [hr] at ht
        rw [← h.2]
        simp at ht
        omega
    · simp at h

/-- Reads the members of an object up to its closing brace, from behind the opening quote of the
next key. -/
def members {α : Type} (value : Reader α) (done : List (String × α)) (s : List Char) :
    Except Fault (List (String × α) × List Char) :=
  match _h : member value s with
  | .error e => .error e
  | .ok (m, t) =>
    match _hb : skipSpace t with
    | [] => .error (.behind .objectUnfinished [])
    | '}' :: rest => .ok ((m :: done).reverse, rest)
    | ',' :: r =>
      match _hc : skipSpace r with
      | [] => .error (.behind .valueUnfinished [])
      | '"' :: u => members value (m :: done) u
      | '}' :: rest => .error (.behind .trailingComma ('}' :: rest))
      | u => .error (.behind .keyExpected u)
    | u => .error (.behind .objectEndExpected u)
termination_by s.length
decreasing_by
  have := member_length_lt _h
  have := length_skipSpace_le t
  have := length_skipSpace_le r
  simp [_hb] at *
  simp [_hc] at *
  omega

theorem members_length_lt {α : Type} {value : Reader α} {done ms : List (String × α)}
    {s rest : List Char} (h : members value done s = .ok (ms, rest)) :
    rest.length < s.length := by
  fun_induction members value done s with
  | case1 => simp at h
  | case2 => simp at h
  | case3 done s m t hm u hb =>
    have := member_length_lt hm
    have := length_skipSpace_le t
    simp [hb] at this
    simp at h
    rw [← h.2]
    omega
  | case4 => simp at h
  | case5 done s m t hm r hb u hc ih =>
    have := member_length_lt hm
    have h₁ := length_skipSpace_le t
    have h₂ := length_skipSpace_le r
    simp [hb] at h₁
    simp [hc] at h₂
    have := ih h
    omega
  | case6 => simp at h
  | case7 => simp at h
  | case8 => simp at h

/-- Reads an object, from behind its opening brace. -/
def object {α : Type} (value : Reader α) (s : List Char) :
    Except Fault (List (String × α) × List Char) :=
  match skipSpace s with
  | [] => .error (.behind .objectUnfinished [])
  | '}' :: rest => .ok ([], rest)
  | '"' :: t => members value [] t
  | t => .error (.behind .keyExpected t)

theorem object_length_le {α : Type} {value : Reader α} {ms : List (String × α)}
    {s rest : List Char} (h : object value s = .ok (ms, rest)) : rest.length ≤ s.length := by
  have hs := length_skipSpace_le s
  unfold object at h
  split at h
  · simp at h
  · rename_i u hu
    simp at h
    rw [hu] at hs
    rw [← h.2]
    exact Nat.le_of_succ_le hs
  · rename_i u hu
    rw [hu] at hs
    exact Nat.le_trans (Nat.le_of_lt (members_length_lt h)) (Nat.le_of_succ_le hs)
  · simp at h

/-! ## Values -/

/-- Reads the value that starts with the character in front. Without a reader for what is
inside, no list or object may start. -/
def token {α : Type} (b : Builder α) (inner? : Option (Reader α)) (s : List Char) :
    Except Fault (α × List Char) :=
  match s with
  | [] => .error (.behind .valueUnfinished [])
  | 'n' :: r => (word ['u', 'l', 'l'] r).map fun rest => (b.null, rest)
  | 't' :: r => (word ['r', 'u', 'e'] r).map fun rest => (b.bool true, rest)
  | 'f' :: r => (word ['a', 'l', 's', 'e'] r).map fun rest => (b.bool false, rest)
  | '"' :: r => (quoted [] r).map fun (t, rest) => (b.string t, rest)
  | '[' :: r =>
    match inner? with
    | none => .error (.behind .tooDeep ('[' :: r))
    | some inner => (list inner r).map fun (as, rest) => (b.list as, rest)
  | '{' :: r =>
    match inner? with
    | none => .error (.behind .tooDeep ('{' :: r))
    | some inner => (object inner r).map fun (ms, rest) => (b.object ms, rest)
  | c :: r =>
    if c = '-' || c.isDigit then
      (numeral (c :: r)).map fun (n, rest) => (b.number n, rest)
    else .error (.behind .valueExpected (c :: r))

theorem rest_of_map {α β ε : Type} {x : Except ε (α × List Char)} {f : α → β} {b : β}
    {rest : List Char} (h : (x.map fun (a, r) => (f a, r)) = .ok (b, rest)) :
    ∃ a, x = .ok (a, rest) := by
  cases x with
  | error e => simp [Except.map] at h
  | ok p => simp [Except.map] at h; exact ⟨p.1, by rw [← h.2]⟩

theorem word_length_of_map {α : Type} {letters s rest : List Char} {a b : α}
    (h : ((word letters s).map fun r => (a, r)) = .ok (b, rest)) : rest.length ≤ s.length := by
  cases hw : word letters s with
  | error e => simp [hw, Except.map] at h
  | ok r => simp [hw, Except.map] at h; rw [← h.2]; exact word_length_le hw

theorem token_length_lt {α : Type} {b : Builder α} {inner? : Option (Reader α)} {a : α}
    {s rest : List Char} (h : token b inner? s = .ok (a, rest)) : rest.length < s.length := by
  unfold token at h
  split at h
  · simp at h
  · exact Nat.lt_succ_of_le (word_length_of_map h)
  · exact Nat.lt_succ_of_le (word_length_of_map h)
  · exact Nat.lt_succ_of_le (word_length_of_map h)
  · obtain ⟨_, h⟩ := rest_of_map h
    exact Nat.lt_succ_of_lt (quoted_length_lt h)
  · split at h
    · simp at h
    · obtain ⟨_, h⟩ := rest_of_map h
      exact Nat.lt_succ_of_le (list_length_le h)
  · split at h
    · simp at h
    · obtain ⟨_, h⟩ := rest_of_map h
      exact Nat.lt_succ_of_le (object_length_le h)
  · split at h
    · obtain ⟨_, h⟩ := rest_of_map h
      exact numeral_length_lt h
    · simp at h

/-- The reader of a value behind blanks, given one for what is inside. -/
def valueWithin {α : Type} (b : Builder α) (inner? : Option (Reader α)) : Reader α where
  read s := token b inner? (skipSpace s)
  shortens h := Nat.lt_of_lt_of_le (token_length_lt h) (length_skipSpace_le _)

/-- The reader of values whose lists and objects nest at most `depth` levels. -/
def value {α : Type} (b : Builder α) : Nat → Reader α
  | 0 => valueWithin b none
  | depth + 1 => valueWithin b (some (value b depth))

def deepest : Nat := 127

/-! ## Documents -/

/-- Reads a whole text: one value between blanks. -/
def document {α : Type} (b : Builder α) (s : List Char) : Except Fault α :=
  match (value b deepest).read s with
  | .error e => .error e
  | .ok (a, t) =>
    match skipSpace t with
    | [] => .ok a
    | u => .error (.behind .trailingCharacters u)

end Reader

def readWith {α : Type} (b : Builder α) (text : String) : Except Refusal α :=
  match Reader.document b text.toList with
  | .ok a => .ok a
  | .error e => .error (e.locate text)

/-- The tree of a text, repeated keys kept. -/
def readTree (text : String) : Except Refusal Json := readWith .tree text

/-- The tree of a text, the last value of each key kept. -/
def readPlain (text : String) : Except Refusal Json := readWith .plain text

end ResourceAudit.Json
