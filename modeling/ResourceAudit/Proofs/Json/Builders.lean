import ResourceAudit.Json.Reader

/-!
# One grammar for every builder

A builder does not decide what is read: reading a text with a builder is reading its tree, and
building from that (`readWith_eq_map_readTree`).
-/

namespace ResourceAudit.Json

/-! ## Building from a tree -/

section

variable {α : Type}

mutual
/-- What a builder makes of a tree. -/
def Builder.build (b : Builder α) : Json → α
  | .null => b.null
  | .bool v => b.bool v
  | .number n => b.number n
  | .string s => b.string s
  | .list items => b.list (Builder.buildItems b items)
  | .object members => b.object (Builder.buildMembers b members)
/-- What a builder makes of each item. -/
def Builder.buildItems (b : Builder α) : List Json → List α
  | [] => []
  | j :: rest => b.build j :: Builder.buildItems b rest
/-- What a builder makes of the value of each member. -/
def Builder.buildMembers (b : Builder α) : List (String × Json) → List (String × α)
  | [] => []
  | (k, j) :: rest => (k, b.build j) :: Builder.buildMembers b rest
end

theorem Builder.buildItems_eq_map (b : Builder α) (items : List Json) :
    b.buildItems items = items.map b.build := by
  induction items with
  | nil => rfl
  | cons j rest ih => rw [Builder.buildItems, ih, List.map_cons]

theorem Builder.buildMembers_eq_map (b : Builder α) (members : List (String × Json)) :
    b.buildMembers members = members.map fun m => (m.1, b.build m.2) := by
  induction members with
  | nil => rfl
  | cons m rest ih => rw [Builder.buildMembers, ih, List.map_cons]

end

mutual
theorem Builder.build_plain : (j : Json) → Builder.plain.build j = j.plain
  | .null => rfl
  | .bool _ => rfl
  | .number _ => rfl
  | .string _ => rfl
  | .list items => congrArg Json.list (Builder.buildItems_plain items)
  | .object members =>
      congrArg (fun ms => Json.object (putAll ms)) (Builder.buildMembers_plain members)

theorem Builder.buildItems_plain :
    (items : List Json) → Builder.plain.buildItems items = plainItems items
  | [] => rfl
  | j :: rest => by
      rw [Builder.buildItems, plainItems, Builder.build_plain j, Builder.buildItems_plain rest]

theorem Builder.buildMembers_plain :
    (members : List (String × Json)) → Builder.plain.buildMembers members = plainMembers members
  | [] => rfl
  | (k, j) :: rest => by
      rw [Builder.buildMembers, plainMembers, Builder.build_plain j,
        Builder.buildMembers_plain rest]
end

/-! ## Readers without their measures -/

namespace Reader

variable {α β : Type}

theorem items_eq (item : Reader α) (done : List α) (s : List Char) :
    items item done s =
      match item.read s with
      | .error e => .error e
      | .ok (a, t) =>
        match skipSpace t with
        | [] => .error (.behind .listUnfinished [])
        | ']' :: rest => .ok ((a :: done).reverse, rest)
        | ',' :: r =>
          match skipSpace r with
          | [] => .error (.behind .valueUnfinished [])
          | ']' :: rest => .error (.behind .trailingComma (']' :: rest))
          | _ => items item (a :: done) r
        | u => .error (.behind .listEndExpected u) := by
  fun_cases items item done s <;> simp_all

theorem members_eq (value : Reader α) (done : List (String × α)) (s : List Char) :
    members value done s =
      match member value s with
      | .error e => .error e
      | .ok (m, t) =>
        match skipSpace t with
        | [] => .error (.behind .objectUnfinished [])
        | '}' :: rest => .ok ((m :: done).reverse, rest)
        | ',' :: r =>
          match skipSpace r with
          | [] => .error (.behind .valueUnfinished [])
          | '"' :: u => members value (m :: done) u
          | '}' :: rest => .error (.behind .trailingComma ('}' :: rest))
          | u => .error (.behind .keyExpected u)
        | u => .error (.behind .objectEndExpected u) := by
  fun_cases members value done s <;> simp_all

/-! ## Readers that agree -/

/-- Both readers stop at the same places, and the second finds what the function makes of what
the first finds. -/
def Agree (f : α → β) (r : Reader α) (r' : Reader β) : Prop :=
  ∀ s, r'.read s = (r.read s).map fun (a, rest) => (f a, rest)

variable {f : α → β} {r : Reader α} {r' : Reader β}

theorem items_of_agree (h : Agree f r r') (done : List α) (s : List Char) :
    items r' (done.map f) s = (items r done s).map fun (as, rest) => (as.map f, rest) := by
  fun_induction items r done s with
  | case1 done s e he =>
      rw [items_eq, h s, he]
      rfl
  | case2 done s a t ht hb =>
      rw [items_eq, h s, ht]
      simp [Except.map, hb]
  | case3 done s a t ht rest hb =>
      rw [items_eq, h s, ht]
      simp [Except.map, hb]
  | case4 done s a t ht u hb hc =>
      rw [items_eq, h s, ht]
      simp [Except.map, hb, hc]
  | case5 done s a t ht u hb rest hc =>
      rw [items_eq, h s, ht]
      simp [Except.map, hb, hc]
  | case6 done s a t ht u hb hc hc' ih =>
      have hstep : items r' (done.map f) s = items r' ((a :: done).map f) u := by
        rw [items_eq, h s, ht]
        simp only [Except.map, hb, List.map_cons]
      exact hstep.trans ih
  | case7 done s a t ht hb hc hd =>
      rw [items_eq, h s, ht]
      simp [Except.map]

/-- What a reader of members does with the value of each. -/
def onValue (f : α → β) (m : String × α) : String × β := (m.1, f m.2)

theorem member_of_agree (h : Agree f r r') (s : List Char) :
    member r' s = (member r s).map fun (m, rest) => (onValue f m, rest) := by
  unfold member
  cases quoted [] s with
  | error e => rfl
  | ok p =>
      obtain ⟨key, t⟩ := p
      simp only
      split
      · rfl
      · rw [h]
        cases r.read _ with
        | error e => rfl
        | ok q => rfl
      · rfl

theorem members_of_agree (h : Agree f r r') (done : List (String × α)) (s : List Char) :
    members r' (done.map (onValue f)) s =
      (members r done s).map fun (ms, rest) => (ms.map (onValue f), rest) := by
  fun_induction members r done s with
  | case1 done s e he =>
      rw [members_eq, member_of_agree h, he]
      rfl
  | case2 done s m t hm hb =>
      rw [members_eq, member_of_agree h, hm]
      simp [Except.map, hb]
  | case3 done s m t hm rest hb =>
      rw [members_eq, member_of_agree h, hm]
      simp [Except.map, hb]
  | case4 done s m t hm u hb hc =>
      rw [members_eq, member_of_agree h, hm]
      simp [Except.map, hb, hc]
  | case5 done s m t hm u hb v hc ih =>
      rw [members_eq, member_of_agree h, hm]
      rw [List.map_cons] at ih
      simp [Except.map, hb, hc, ih]
  | case6 done s m t hm u hb rest hc =>
      rw [members_eq, member_of_agree h, hm]
      simp [Except.map, hb, hc]
  | case7 done s m t hm u hb hc hc' hc'' =>
      rw [members_eq, member_of_agree h, hm]
      simp [Except.map, hb]
  | case8 done s m t hm hb hb' hb'' =>
      rw [members_eq, member_of_agree h, hm]
      simp [Except.map]

theorem list_of_agree (h : Agree f r r') (s : List Char) :
    list r' s = (list r s).map fun (as, rest) => (as.map f, rest) := by
  unfold list
  split
  · rfl
  · rfl
  · exact items_of_agree h [] _

theorem object_of_agree (h : Agree f r r') (s : List Char) :
    object r' s = (object r s).map fun (ms, rest) => (ms.map (onValue f), rest) := by
  unfold object
  split
  · rfl
  · rfl
  · exact members_of_agree h [] _
  · rfl

/-! ## Values and documents -/

section

variable (b : Builder α)

theorem token_of_agree {inner : Option (Reader Json)} {inner' : Option (Reader α)}
    (h : Option.Rel (Agree b.build) inner inner') (s : List Char) :
    token b inner' s = (token .tree inner s).map fun (j, rest) => (b.build j, rest) := by
  unfold token
  split
  · rfl
  · cases word _ _ <;> rfl
  · cases word _ _ <;> rfl
  · cases word _ _ <;> rfl
  · cases quoted _ _ <;> rfl
  · cases h with
    | none => rfl
    | some h =>
        simp only [list_of_agree h]
        cases list _ _ with
        | error e => rfl
        | ok p =>
            simp only [Except.map, Builder.tree, Builder.build, Builder.buildItems_eq_map]
  · cases h with
    | none => rfl
    | some h =>
        simp only [object_of_agree h]
        cases object _ _ with
        | error e => rfl
        | ok p =>
            simp only [Except.map, Builder.tree, Builder.build, Builder.buildMembers_eq_map]
            rfl
  · split
    · cases numeral _ <;> rfl
    · rfl

theorem value_agree (depth : Nat) : Agree b.build (value .tree depth) (value b depth) := by
  induction depth with
  | zero => exact fun s => token_of_agree b .none _
  | succ depth ih => exact fun s => token_of_agree b (.some ih) _

theorem document_eq_map (s : List Char) : document b s = (document .tree s).map b.build := by
  unfold document
  rw [value_agree b deepest s]
  cases (value Builder.tree deepest).read s with
  | error e => rfl
  | ok p =>
      simp only [Except.map]
      split
      · rfl
      · rfl

end

end Reader

theorem readWith_eq_map_readTree {α : Type} (b : Builder α) (text : String) :
    readWith b text = (readTree text).map b.build := by
  unfold readTree readWith
  rw [Reader.document_eq_map]
  cases Reader.document .tree text.toList with
  | error e => rfl
  | ok j => rfl

theorem readPlain_eq_map_readTree (text : String) :
    readPlain text = (readTree text).map plain := by
  rw [readPlain, readWith_eq_map_readTree, funext Builder.build_plain]

end ResourceAudit.Json
