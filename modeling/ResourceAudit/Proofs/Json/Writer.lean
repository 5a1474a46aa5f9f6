import ResourceAudit.Proofs.Json.Builders
import ResourceAudit.Proofs.Json.Numeral
import ResourceAudit.Proofs.Json.Quoted

/-!
# Reading what was written

A legible tree is read back from its text, however the writer spaced it
(`readTree_write`, `readPlain_write`).
-/

namespace ResourceAudit.Json

/-- A tree that a text can hold without loss: integers of 64 bits and no doubles, and lists and
objects that nest at most so deep. -/
inductive Legible : Nat → Json → Prop
  | null {depth : Nat} : Legible depth .null
  | bool {depth : Nat} (b : Bool) : Legible depth (.bool b)
  | integer {depth : Nat} {n : Int} (h : Within64 n) : Legible depth (.number (.int n))
  | string {depth : Nat} (s : String) : Legible depth (.string s)
  | list {depth : Nat} {items : List Json} (h : ∀ j ∈ items, Legible depth j) :
      Legible (depth + 1) (.list items)
  | object {depth : Nat} {members : List (String × Json)} (h : ∀ m ∈ members, Legible depth m.2) :
      Legible (depth + 1) (.object members)

/-- Whether a tree is legible, found out by a descent into it. -/
def isLegible (depth : Nat) : Json → Bool
  | .null | .bool _ | .string _ => true
  | .number (.int n) => decide (Within64 n)
  | .number (.float _) => false
  | .list items =>
    match depth with
    | 0 => false
    | below + 1 => items.all fun j => isLegible below j
  | .object members =>
    match depth with
    | 0 => false
    | below + 1 => members.all fun m => isLegible below m.2

theorem legible_of_isLegible {depth : Nat} {j : Json} (h : isLegible depth j = true) :
    Legible depth j := by
  fun_induction isLegible depth j with
  | case1 => exact .null
  | case2 => exact .bool _
  | case3 => exact .string _
  | case4 => exact .integer (of_decide_eq_true h)
  | case5 | case6 | case8 => cases h
  | case7 items below ih => exact .list fun j hj => ih j (List.all_eq_true.1 h j hj)
  | case9 members below ih => exact .object fun m hm => ih m (List.all_eq_true.1 h m hm)

theorem isLegible_of_legible {depth : Nat} {j : Json} (h : Legible depth j) :
    isLegible depth j = true := by
  induction h with
  | null | bool _ | string _ => rw [isLegible]
  | integer h =>
      rw [isLegible]
      exact decide_eq_true h
  | list _ ih =>
      rw [isLegible]
      exact List.all_eq_true.2 ih
  | object _ ih =>
      rw [isLegible]
      exact List.all_eq_true.2 ih

instance (depth : Nat) (j : Json) : Decidable (Legible depth j) :=
  decidable_of_iff _ ⟨legible_of_isLegible, isLegible_of_legible⟩

namespace Reader

/-! ## Blanks -/

theorem skipSpace_append {blanks : List Char} (h : blanks.all isSpace) (s : List Char) :
    skipSpace (blanks ++ s) = skipSpace s :=
  List.dropWhile_append_of_pos (List.all_eq_true.1 h)

theorem skipSpace_cons {c : Char} (h : isSpace c = false) (s : List Char) :
    skipSpace (c :: s) = c :: s := by
  rw [skipSpace, List.dropWhile_cons, h]
  rfl

theorem isDigit_of_isSpace {c : Char} (h : isSpace c = true) :
    c.isDigit = false ∧ c ≠ '.' ∧ c ≠ 'e' ∧ c ≠ 'E' := by
  simp only [isSpace, Bool.or_eq_true, beq_iff_eq] at h
  rcases h with ((rfl | rfl) | rfl) | rfl <;> decide

theorem endsNumeral_append {blanks s : List Char} (hblanks : blanks.all isSpace)
    (hs : EndsNumeral s) : EndsNumeral (blanks ++ s) := by
  cases blanks with
  | nil => exact hs
  | cons c rest =>
      rintro _ ⟨⟩
      exact isDigit_of_isSpace (List.all_eq_true.1 hblanks c List.mem_cons_self)

/-- A numeral ends at a comma and at a closing bracket. -/
theorem endsNumeral_cons {c : Char} (hc : c ∈ [',', ']', '}']) (s : List Char) :
    EndsNumeral (c :: s) := by
  rintro _ ⟨⟩
  simp only [List.mem_cons, List.not_mem_nil, or_false] at hc
  rcases hc with rfl | rfl | rfl <;> decide

/-! ## Scalars -/

theorem token_numeral {α : Type} (b : Builder α) (inner? : Option (Reader α)) {c : Char}
    (hc : c = '-' ∨ c.isDigit = true) (s : List Char) :
    token b inner? (c :: s) = (numeral (c :: s)).map fun (n, rest) => (b.number n, rest) := by
  have hother : ∀ d, d ≠ '-' → d.isDigit = false → c ≠ d := by
    rintro _ hminus hdigit rfl
    rcases hc with hc | hc
    · exact hminus hc
    · rw [hdigit] at hc
      cases hc
  rw [token, if_pos (by simpa using hc)]
  all_goals exact hother _ (by decide) (by decide)

theorem head_writeNumber (n : Int) :
    ∃ c cs, writeNumber (.int n) = c :: cs ∧ (c = '-' ∨ c.isDigit = true) := by
  by_cases hneg : n < 0
  · exact ⟨'-', Nat.toDigits 10 n.natAbs, by simp [writeNumber, hneg], .inl rfl⟩
  · cases hds : Nat.toDigits 10 n.natAbs with
    | nil => exact absurd hds Nat.toDigits_ne_nil
    | cons c cs =>
        have hdigit : c.isDigit = true :=
          Text.isDigit_of_mem_toDigits (n := n.natAbs) (by simp [hds])
        exact ⟨c, cs, by simp [writeNumber, hneg, hds], .inr hdigit⟩

theorem isSpace_of_numeral {c : Char} (hc : c = '-' ∨ c.isDigit = true) : isSpace c = false := by
  cases hspace : isSpace c with
  | false => rfl
  | true =>
      rcases hc with rfl | hc
      · exact absurd hspace (by decide)
      · rw [(isDigit_of_isSpace hspace).1] at hc
        cases hc

/-- A written value begins with a character that is no blank and closes no list. -/
theorem head_write {depth : Nat} {j : Json} (hj : Legible depth j) (sp : Spacing) (level : Nat) :
    ∃ c cs, j.write sp level = c :: cs ∧ isSpace c = false ∧ c ≠ ']' := by
  cases hj with
  | null => exact ⟨_, _, rfl, rfl, by decide⟩
  | bool b => cases b <;> exact ⟨_, _, rfl, rfl, by decide⟩
  | @integer _ n h =>
      obtain ⟨c, cs, hcs, hc⟩ := head_writeNumber n
      refine ⟨c, cs, hcs, isSpace_of_numeral hc, ?_⟩
      rintro rfl
      rcases hc with hc | hc
      · exact absurd hc (by decide)
      · exact absurd hc (by decide)
  | string s => exact ⟨_, _, rfl, rfl, by decide⟩
  | @list _ items h => cases items <;> exact ⟨_, _, rfl, rfl, by decide⟩
  | @object _ members h => cases members <;> exact ⟨_, _, rfl, rfl, by decide⟩

/-! ## Lists -/

/-- The reader takes the written value for the value, blanks before it or not. -/
def Takes (r : Reader Json) (sp : Spacing) (level : Nat) (j : Json) : Prop :=
  ∀ {blanks tail : List Char}, blanks.all isSpace → EndsNumeral tail →
    r.read (blanks ++ (j.write sp level ++ tail)) = .ok (j, tail)

theorem items_written {r : Reader Json} {sp : Spacing} {level depth : Nat} {j : Json}
    {rest : List Json} (done : List Json) (blanks tail : List Char)
    (hlegible : ∀ i ∈ j :: rest, Legible depth i) (hr : ∀ i ∈ j :: rest, Takes r sp (level + 1) i)
    (hblanks : blanks.all isSpace) :
    items r done (blanks ++ (j.write sp (level + 1) ++ (writeItems sp level rest ++ tail))) =
      .ok (done.reverse ++ j :: rest, tail) := by
  induction rest generalizing j done blanks with
  | nil =>
      have htext : writeItems sp level [] ++ tail = sp.line level ++ ']' :: tail := by
        rw [writeItems, List.append_assoc]
        rfl
      have hends : EndsNumeral (sp.line level ++ ']' :: tail) :=
        endsNumeral_append (sp.line_isSpace level) (endsNumeral_cons (by simp) tail)
      rw [htext, items_eq, hr j List.mem_cons_self hblanks hends]
      simp only [skipSpace_append (sp.line_isSpace level), skipSpace_cons (c := ']') rfl,
        List.reverse_cons]
  | cons k rest ih =>
      obtain ⟨c, cs, hcs, hspace, hclose⟩ :=
        head_write (hlegible k (by simp)) sp (level + 1)
      have hnext : skipSpace (sp.line (level + 1) ++
          (k.write sp (level + 1) ++ (writeItems sp level rest ++ tail))) =
            c :: (cs ++ (writeItems sp level rest ++ tail)) := by
        rw [skipSpace_append (sp.line_isSpace _), hcs, List.cons_append, skipSpace_cons hspace]
      have htext : writeItems sp level (k :: rest) ++ tail = ',' :: (sp.line (level + 1) ++
          (k.write sp (level + 1) ++ (writeItems sp level rest ++ tail))) := by
        simp [writeItems]
      have hstep := ih (j :: done) _ (fun i hi => hlegible i (List.mem_cons_of_mem _ hi))
        (fun i hi => hr i (List.mem_cons_of_mem _ hi)) (sp.line_isSpace (level + 1))
      rw [htext, items_eq, hr j List.mem_cons_self hblanks (endsNumeral_cons (by simp) _)]
      rw [List.reverse_cons, List.append_assoc, List.singleton_append] at hstep
      simp only [skipSpace_cons (c := ',') rfl, hnext]
      split
      · rename_i heq
        cases heq
      · rename_i heq
        exact absurd (List.cons.inj heq).1 hclose
      · exact hstep

theorem list_written {r : Reader Json} {sp : Spacing} {level depth : Nat} {items : List Json}
    (hlegible : ∀ i ∈ items, Legible depth i) (hr : ∀ i ∈ items, Takes r sp (level + 1) i)
    (tail : List Char) :
    ∃ s, Json.write sp level (.list items) ++ tail = '[' :: s ∧ list r s = .ok (items, tail) := by
  cases items with
  | nil => exact ⟨']' :: tail, rfl, rfl⟩
  | cons j rest =>
      refine ⟨sp.line (level + 1) ++ (j.write sp (level + 1) ++ (writeItems sp level rest ++ tail)),
        by simp [write], ?_⟩
      obtain ⟨c, cs, hcs, hspace, hclose⟩ :=
        head_write (hlegible j List.mem_cons_self) sp (level + 1)
      have hitems := items_written [] [] tail hlegible hr rfl
      rw [list, skipSpace_append (sp.line_isSpace _), hcs, List.cons_append, skipSpace_cons hspace]
      rw [hcs] at hitems
      split
      · rename_i heq
        cases heq
      · rename_i heq
        exact absurd (List.cons.inj heq).1 hclose
      · exact hitems

/-! ## Objects -/

/-- A member as the writer leaves it, from behind the opening quote of its key. -/
def memberText (sp : Spacing) (level : Nat) (m : String × Json) (tail : List Char) : List Char :=
  m.1.toList.flatMap writeChar ++ '"' :: ':' :: (sp.gap ++ (m.2.write sp level ++ tail))

theorem member_written {r : Reader Json} {sp : Spacing} {level : Nat} {m : String × Json}
    {tail : List Char} (hr : Takes r sp level m.2) (htail : EndsNumeral tail) :
    member r (memberText sp level m tail) = .ok (m, tail) := by
  rw [member, memberText, quoted_written]
  simp only [skipSpace_cons (c := ':') rfl, hr sp.gap_isSpace htail]

theorem members_written {r : Reader Json} {sp : Spacing} {level : Nat} {m : String × Json}
    {rest : List (String × Json)} (done : List (String × Json)) {tail : List Char}
    (hr : ∀ i ∈ m :: rest, Takes r sp (level + 1) i.2) :
    members r done (memberText sp (level + 1) m (writeMembers sp level rest ++ tail)) =
      .ok (done.reverse ++ m :: rest, tail) := by
  induction rest generalizing m done with
  | nil =>
      have htext : writeMembers sp level [] ++ tail = sp.line level ++ '}' :: tail := by
        rw [writeMembers, List.append_assoc]
        rfl
      have hends : EndsNumeral (sp.line level ++ '}' :: tail) :=
        endsNumeral_append (sp.line_isSpace level) (endsNumeral_cons (by simp) tail)
      rw [htext, members_eq, member_written (hr m List.mem_cons_self) hends]
      simp only [skipSpace_append (sp.line_isSpace level), skipSpace_cons (c := '}') rfl,
        List.reverse_cons]
  | cons k rest ih =>
      have hnext : skipSpace (sp.line (level + 1) ++ ('"' ::
          memberText sp (level + 1) k (writeMembers sp level rest ++ tail))) =
            '"' :: memberText sp (level + 1) k (writeMembers sp level rest ++ tail) := by
        rw [skipSpace_append (sp.line_isSpace _), skipSpace_cons rfl]
      have htext : writeMembers sp level (k :: rest) ++ tail =
          ',' :: (sp.line (level + 1) ++ ('"' ::
            memberText sp (level + 1) k (writeMembers sp level rest ++ tail))) := by
        simp [writeMembers, writeString, memberText]
      have hstep := ih (m :: done) fun i hi => hr i (List.mem_cons_of_mem _ hi)
      rw [htext, members_eq,
        member_written (hr m List.mem_cons_self) (endsNumeral_cons (by simp) _)]
      rw [List.reverse_cons, List.append_assoc, List.singleton_append] at hstep
      simp only [skipSpace_cons (c := ',') rfl, hnext]
      exact hstep

theorem object_written {r : Reader Json} {sp : Spacing} {level : Nat}
    {ms : List (String × Json)} (hr : ∀ m ∈ ms, Takes r sp (level + 1) m.2) (tail : List Char) :
    ∃ s, Json.write sp level (.object ms) ++ tail = '{' :: s ∧ object r s = .ok (ms, tail) := by
  cases ms with
  | nil => exact ⟨'}' :: tail, rfl, rfl⟩
  | cons m rest =>
      refine ⟨sp.line (level + 1) ++
        ('"' :: memberText sp (level + 1) m (writeMembers sp level rest ++ tail)),
        by simp [write, writeString, memberText], ?_⟩
      rw [object, skipSpace_append (sp.line_isSpace _), skipSpace_cons rfl]
      exact members_written [] hr

/-! ## Trees -/

theorem takes_of_token {depth : Nat} {j : Json} {sp : Spacing} {level : Nat}
    (h : ∀ inner? tail, EndsNumeral tail →
      token .tree inner? (skipSpace (j.write sp level ++ tail)) = .ok (j, tail)) :
    Takes (value .tree depth) sp level j := by
  intro blanks tail hblanks htail
  cases depth with
  | zero =>
      simp only [value, valueWithin, skipSpace_append hblanks]
      exact h none tail htail
  | succ depth =>
      simp only [value, valueWithin, skipSpace_append hblanks]
      exact h (some (value .tree depth)) tail htail

theorem takes_value {depth : Nat} {j : Json} (hj : Legible depth j) (sp : Spacing) (level : Nat) :
    Takes (value .tree depth) sp level j := by
  induction hj generalizing level with
  | null => exact takes_of_token fun _ _ _ => rfl
  | bool b => cases b <;> exact takes_of_token fun _ _ _ => rfl
  | @integer depth n h =>
      refine takes_of_token fun inner? tail htail => ?_
      obtain ⟨c, cs, hcs, hc⟩ := head_writeNumber n
      have hnumeral := numeral_writeNumber h htail
      rw [hcs, List.cons_append] at hnumeral
      rw [write, hcs, List.cons_append, skipSpace_cons (isSpace_of_numeral hc),
        token_numeral _ _ hc, hnumeral]
      rfl
  | string s =>
      refine takes_of_token fun inner? tail _ => ?_
      rw [write, writeString_append, skipSpace_cons rfl]
      simp only [token, quoted_written]
      rfl
  | @list depth items h ih =>
      intro blanks tail hblanks htail
      obtain ⟨s, hs, hlist⟩ := list_written h (fun i hi => ih i hi (level + 1)) tail
      rw [hs, value, valueWithin]
      simp only [skipSpace_append hblanks, skipSpace_cons (c := '[') rfl, token, hlist]
      rfl
  | @object depth members h ih =>
      intro blanks tail hblanks htail
      obtain ⟨s, hs, hobject⟩ := object_written (fun m hm => ih m hm (level + 1)) tail
      rw [hs, value, valueWithin]
      simp only [skipSpace_append hblanks, skipSpace_cons (c := '{') rfl, token, hobject]
      rfl

end Reader

theorem readTree_write {j : Json} (hj : Legible Reader.deepest j) (sp : Spacing) :
    readTree (String.ofList (j.write sp 0)) = .ok j := by
  have hread : (Reader.value .tree Reader.deepest).read ([] ++ (j.write sp 0 ++ [])) =
      .ok (j, []) :=
    Reader.takes_value hj sp 0 rfl nofun
  rw [List.nil_append, List.append_nil] at hread
  rw [readTree, readWith, String.toList_ofList, Reader.document, hread]
  rfl

theorem readPlain_write {j : Json} (hj : Legible Reader.deepest j) (sp : Spacing) :
    readPlain (String.ofList (j.write sp 0)) = .ok j.plain := by
  rw [readPlain_eq_map_readTree, readTree_write hj sp]
  rfl

end ResourceAudit.Json
