import QueryPredicates.Proofs.Text.Digits
import QueryPredicates.Proofs.Value.Equations
import QueryPredicates.Value.Sql

/-! What a literal says. It shows all of a value but the width of an integer and whether case counts
in a text, as long as no double and no geometry is in it. A literal tells by its first character what
it is a literal of, and where it ends whatever follows it in a collection, so that separators and
brackets inside quoted text are never taken for those of a collection. -/

namespace QueryPredicates
namespace Value
open QueryPredicates.Text

mutual
/-- There is no double and no geometry in the value. -/
def isDiscrete : Value → Bool
  | double _ | geometry _ => false
  | array items | row items => areDiscrete items
  | null | bool _ | int _ | bigInt _ | text _ | textIgnoreCase _ => true

/-- There is none in any of the values. -/
def areDiscrete : List Value → Bool
  | [] => true
  | v :: vs => v.isDiscrete && areDiscrete vs
end

mutual
/-- What the literal shows of the value: integers are big integers, and case counts in texts. -/
def shown : Value → Value
  | int n => bigInt n.toInt64
  | textIgnoreCase s => text s
  | array items => array (shownItems items)
  | row items => row (shownItems items)
  | null => null
  | bool b => bool b
  | bigInt n => bigInt n
  | double x => double x
  | text s => text s
  | geometry g => geometry g

/-- What the literals show of the values. -/
def shownItems : List Value → List Value
  | [] => []
  | v :: vs => v.shown :: shownItems vs
end

mutual
/-- The literal shows all of the value. -/
def isShown : Value → Bool
  | null | bool _ | bigInt _ | text _ => true
  | array items | row items => areShown items
  | int _ | double _ | textIgnoreCase _ | geometry _ => false

/-- The literals show all of the values. -/
def areShown : List Value → Bool
  | [] => true
  | v :: vs => v.isShown && areShown vs
end

mutual
theorem sql_shown : ∀ v : Value, v.shown.sql = v.sql
  | int n => congrArg toString (Int32.toInt_toInt64 n)
  | array items => by rw [shown, sql, sql, sqls_shownItems items]
  | row items => by rw [shown, sql, sql, sqls_shownItems items]
  | null | bool _ | bigInt _ | double _ | text _ | textIgnoreCase _ | geometry _ => rfl

theorem sqls_shownItems : ∀ vs : List Value, sqls (shownItems vs) = sqls vs
  | [] => rfl
  | v :: vs => by rw [shownItems, sqls, sqls, sql_shown v, sqls_shownItems vs]
end

mutual
theorem isShown_shown : ∀ v : Value, v.isDiscrete = true → v.shown.isShown = true
  | array items, h => areShown_shownItems items h
  | row items, h => areShown_shownItems items h
  | null, _ | bool _, _ | int _, _ | bigInt _, _ | text _, _ | textIgnoreCase _, _ => rfl

theorem areShown_shownItems : ∀ vs : List Value, areDiscrete vs = true →
    areShown (shownItems vs) = true
  | [], _ => rfl
  | v :: vs, h => by
    obtain ⟨hv, hvs⟩ := Bool.and_eq_true_iff.mp h
    rw [shownItems, areShown, isShown_shown v hv, areShown_shownItems vs hvs]
    rfl
end

theorem areShown_iff {vs : List Value} : areShown vs = true ↔ ∀ v ∈ vs, v.isShown = true := by
  induction vs with
  | nil => simp [areShown]
  | cons v vs ih => simp [areShown, ih]

/-! ## Collections -/

theorem toList_sql_array (items : List Value) (rest : List Char) :
    (array items).sql.toList ++ rest =
      "ARRAY [".toList ++ ((join ", " (sqls items)).toList ++ ']' :: rest) := by
  rw [sql, String.toList_append, String.toList_append, List.append_assoc, List.append_assoc]
  rfl

theorem toList_sql_row (items : List Value) (rest : List Char) :
    (row items).sql.toList ++ rest =
      "ROW (".toList ++ ((join ", " (sqls items)).toList ++ ')' :: rest) := by
  rw [sql, String.toList_append, String.toList_append, List.append_assoc, List.append_assoc]
  rfl

/-- The literals of items after the first, each with its separator. -/
def trail (vs : List Value) : List Char := vs.flatMap fun v => ',' :: ' ' :: v.sql.toList

theorem trail_cons (v : Value) (vs : List Value) :
    trail (v :: vs) = ',' :: ' ' :: (v.sql.toList ++ trail vs) := by
  rw [trail, List.flatMap_cons]
  rfl

theorem toList_join_cons (v : Value) (vs : List Value) :
    (join ", " (sqls (v :: vs))).toList = v.sql.toList ++ trail vs := by
  induction vs generalizing v with
  | nil => simp [sqls, join, trail]
  | cons w vs ih =>
    have hjoin : join ", " (sqls (v :: w :: vs)) = v.sql ++ ", " ++ join ", " (sqls (w :: vs)) := rfl
    rw [hjoin, String.toList_append, String.toList_append, ih, trail_cons, List.append_assoc]
    rfl

/-! ## Beginnings -/

/-- The type of the shown values whose literals begin with the character. -/
def typeOfInitial (c : Char) : SqlType :=
  if c = 'N' then .null
  else if c = 'T' ∨ c = 'F' then .boolean
  else if c = '\'' then .text
  else if c = 'A' then .array
  else if c = 'R' then .row
  else if isNumeral c then .bigInt
  else .unknown

theorem typeOfInitial_of_isNumeral {c : Char} (h : isNumeral c = true) :
    typeOfInitial c = .bigInt := by
  have hne {d : Char} (hd : isNumeral d = false) : c ≠ d := fun hc => by
    rw [hc, hd] at h
    cases h
  have hN : c ≠ 'N' := hne (by decide)
  have hT : c ≠ 'T' := hne (by decide)
  have hF : c ≠ 'F' := hne (by decide)
  have hquote : c ≠ '\'' := hne (by decide)
  have hA : c ≠ 'A' := hne (by decide)
  have hR : c ≠ 'R' := hne (by decide)
  simp [typeOfInitial, hN, hT, hF, hquote, hA, hR, h]

/-- The first character of a literal tells the type of the value. -/
theorem exists_initial {v : Value} (h : v.isShown = true) :
    ∃ c cs, v.sql.toList = c :: cs ∧ typeOfInitial c = v.type := by
  cases v with
  | int _ | double _ | textIgnoreCase _ | geometry _ => cases h
  | null => exact ⟨'N', _, rfl, rfl⟩
  | bool b =>
    cases b with
    | false => exact ⟨'F', _, rfl, rfl⟩
    | true => exact ⟨'T', _, rfl, rfl⟩
  | bigInt n =>
    have hne : (toString n.toInt).toList ≠ [] := by
      rw [toList_toString]
      split
      · exact Nat.toDigits_ne_nil
      · exact List.cons_ne_nil _ _
    obtain ⟨c, cs, hcs⟩ := List.exists_cons_of_ne_nil hne
    have hc : isNumeral c = true := isNumeral_of_mem_toString (hcs ▸ List.mem_cons_self)
    exact ⟨c, cs, hcs, typeOfInitial_of_isNumeral hc⟩
  | text s =>
    have hlist : (text s).sql.toList = '\'' :: (doubleQuotes s.toList ++ ['\'']) := by
      rw [sql, quote, String.toList_ofList]
    exact ⟨'\'', _, hlist, rfl⟩
  | array items =>
    have hlist := toList_sql_array items []
    rw [List.append_nil] at hlist
    exact ⟨'A', _, hlist, rfl⟩
  | row items =>
    have hlist := toList_sql_row items []
    rw [List.append_nil] at hlist
    exact ⟨'R', _, hlist, rfl⟩

/-- Literals that begin one text are of values of one type. -/
theorem type_eq_of_append {v w : Value} {rest rest' : List Char} (hv : v.isShown = true)
    (hw : w.isShown = true) (h : v.sql.toList ++ rest = w.sql.toList ++ rest') :
    v.type = w.type := by
  obtain ⟨c, cs, hcs, hc⟩ := exists_initial hv
  obtain ⟨d, ds, hds, hd⟩ := exists_initial hw
  rw [hcs, hds, List.cons_append, List.cons_append] at h
  rw [← hc, ← hd, (List.cons.inj h).1]

/-! ## Endings -/

/-- What can follow a literal: nothing, or what separates or closes the items of a collection. -/
def Follows (rest : List Char) : Prop := ∀ c ∈ rest.head?, c ∈ [',', ']', ')']

/-- An integer is over where another item follows. -/
theorem Follows.not_isNumeral {rest : List Char} (h : Follows rest) :
    ∀ c ∈ rest.head?, isNumeral c = false := by
  intro c hc
  have hmem := h c hc
  simp only [List.mem_cons, List.not_mem_nil, or_false] at hmem
  rcases hmem with rfl | rfl | rfl <;> rfl

/-- Reads up to a quote that is not written twice. -/
def readQuoted : List Char → List Char × List Char
  | '\'' :: '\'' :: cs => ('\'' :: (readQuoted cs).1, (readQuoted cs).2)
  | '\'' :: rest => ([], rest)
  | c :: cs => (c :: (readQuoted cs).1, (readQuoted cs).2)
  | [] => ([], [])

theorem readQuoted_doubleQuotes {rest : List Char} (h : Follows rest) (cs : List Char) :
    readQuoted (doubleQuotes cs ++ '\'' :: rest) = (cs, rest) := by
  induction cs with
  | nil =>
    rw [doubleQuotes, List.nil_append]
    cases rest with
    | nil => rfl
    | cons c rest =>
      have hc : c ≠ '\'' := by
        rintro rfl
        exact absurd (h '\'' rfl) (by decide)
      simp [readQuoted, hc]
  | cons c cs ih =>
    by_cases hc : c = '\''
    · simp [doubleQuotes, readQuoted, hc, ih]
    · simp [doubleQuotes, readQuoted, hc, ih]

theorem quote_append_inj {s t : String} {rest rest' : List Char} (h : Follows rest)
    (h' : Follows rest') (heq : (quote s).toList ++ rest = (quote t).toList ++ rest') :
    s = t ∧ rest = rest' := by
  have hlist (s : String) (rest : List Char) :
      (quote s).toList ++ rest = '\'' :: (doubleQuotes s.toList ++ '\'' :: rest) := by
    simp [quote]
  rw [hlist, hlist, List.cons.injEq] at heq
  have hread := congrArg readQuoted heq.2
  rw [readQuoted_doubleQuotes h, readQuoted_doubleQuotes h', Prod.mk.injEq, String.toList_inj]
    at hread
  exact hread

/-! ## Whole literals -/

/-- Where the literal of a value and another one begin one text, they are one literal. -/
def Stands (v : Value) : Prop :=
  ∀ {w : Value} {rest rest' : List Char}, w.isShown = true → Follows rest → Follows rest' →
    v.sql.toList ++ rest = w.sql.toList ++ rest' → v = w ∧ rest = rest'

theorem follows_trail {closer : Char} (hcloser : closer = ']' ∨ closer = ')') (vs : List Value)
    (rest : List Char) : Follows (trail vs ++ closer :: rest) := by
  cases vs with
  | nil => rcases hcloser with rfl | rfl <;> simp [Follows, trail]
  | cons v vs => simp [Follows, trail_cons]

theorem trail_append_inj {closer : Char} (hcloser : closer = ']' ∨ closer = ')') {vs ws : List Value}
    {rest rest' : List Char} (hvs : ∀ v ∈ vs, v.Stands) (hws : ∀ w ∈ ws, w.isShown = true)
    (h : trail vs ++ closer :: rest = trail ws ++ closer :: rest') : vs = ws ∧ rest = rest' := by
  have hcomma : closer ≠ ',' := by rcases hcloser with rfl | rfl <;> decide
  induction vs generalizing ws with
  | nil =>
    cases ws with
    | nil => exact ⟨rfl, (List.cons.inj h).2⟩
    | cons w ws =>
      rw [trail_cons] at h
      exact absurd (List.cons.inj h).1 hcomma
  | cons v vs ih =>
    cases ws with
    | nil =>
      rw [trail_cons] at h
      exact absurd (List.cons.inj h).1.symm hcomma
    | cons w ws =>
      obtain ⟨hv, hitems⟩ := List.forall_mem_cons.mp hvs
      obtain ⟨hw, hitems'⟩ := List.forall_mem_cons.mp hws
      rw [trail_cons, trail_cons] at h
      simp only [List.cons_append, List.cons.injEq, true_and, List.append_assoc] at h
      obtain ⟨rfl, htrail⟩ :=
        hv hw (follows_trail hcloser vs rest) (follows_trail hcloser ws rest') h
      obtain ⟨rfl, hrest⟩ := ih hitems hitems' htrail
      exact ⟨rfl, hrest⟩

/-- No literal begins with what closes a collection. -/
theorem initial_ne_closer {v : Value} (h : v.isShown = true) {closer : Char}
    (hcloser : closer = ']' ∨ closer = ')') {rest rest' : List Char} :
    v.sql.toList ++ rest ≠ closer :: rest' := by
  intro heq
  obtain ⟨c, cs, hcs, hc⟩ := exists_initial h
  rw [hcs, List.cons_append] at heq
  rw [(List.cons.inj heq).1] at hc
  refine type_ne_unknown v (hc.symm.trans ?_)
  rcases hcloser with rfl | rfl <;> rfl

theorem items_append_inj {closer : Char} (hcloser : closer = ']' ∨ closer = ')') {vs ws : List Value}
    {rest rest' : List Char} (hvs : ∀ v ∈ vs, v.isShown = true ∧ v.Stands)
    (hws : ∀ w ∈ ws, w.isShown = true)
    (h : (join ", " (sqls vs)).toList ++ closer :: rest =
      (join ", " (sqls ws)).toList ++ closer :: rest') : vs = ws ∧ rest = rest' := by
  cases vs with
  | nil =>
    cases ws with
    | nil => exact ⟨rfl, (List.cons.inj h).2⟩
    | cons w ws =>
      rw [toList_join_cons, List.append_assoc] at h
      exact absurd h.symm (initial_ne_closer (hws w List.mem_cons_self) hcloser)
  | cons v vs =>
    obtain ⟨⟨hshown, hv⟩, hitems⟩ := List.forall_mem_cons.mp hvs
    cases ws with
    | nil =>
      rw [toList_join_cons, List.append_assoc] at h
      exact absurd h (initial_ne_closer hshown hcloser)
    | cons w ws =>
      obtain ⟨hw, hitems'⟩ := List.forall_mem_cons.mp hws
      rw [toList_join_cons, toList_join_cons, List.append_assoc, List.append_assoc] at h
      obtain ⟨rfl, htrail⟩ :=
        hv hw (follows_trail hcloser vs rest) (follows_trail hcloser ws rest') h
      obtain ⟨rfl, hrest⟩ :=
        trail_append_inj hcloser (fun v hmem => (hitems v hmem).2) hitems' htrail
      exact ⟨rfl, hrest⟩

theorem stands_null : null.Stands := by
  intro w rest rest' hw _ _ heq
  cases w with
  | null => exact ⟨rfl, List.append_cancel_left heq⟩
  | _ => cases type_eq_of_append rfl hw heq

theorem stands_bool (b : Bool) : (bool b).Stands := by
  intro w rest rest' hw _ _ heq
  cases w with
  | bool b' =>
    cases b <;> cases b' <;> first
      | exact ⟨rfl, List.append_cancel_left heq⟩
      | cases (List.cons.inj heq).1
  | _ => cases type_eq_of_append rfl hw heq

theorem stands_bigInt (n : Int64) : (bigInt n).Stands := by
  intro w rest rest' hw hrest hrest' heq
  cases w with
  | bigInt m =>
    obtain ⟨hn, hr⟩ := toString_append_inj hrest.not_isNumeral hrest'.not_isNumeral heq
    exact ⟨congrArg bigInt (Int64.toInt_inj.mp hn), hr⟩
  | _ => cases type_eq_of_append rfl hw heq

theorem stands_text (s : String) : (text s).Stands := by
  intro w rest rest' hw hrest hrest' heq
  cases w with
  | text t =>
    obtain ⟨rfl, hr⟩ := quote_append_inj hrest hrest' heq
    exact ⟨rfl, hr⟩
  | _ => cases type_eq_of_append rfl hw heq

/-- Collections of one kind, told by how their literals begin and end. -/
theorem stands_collection {make : List Value → Value} {opening : List Char} {closer : Char}
    (hcloser : closer = ']' ∨ closer = ')')
    (hsql : ∀ items rest, (make items).sql.toList ++ rest =
      opening ++ ((join ", " (sqls items)).toList ++ closer :: rest))
    (hmake : ∀ {items w}, (make items).type = w.type → ∃ items', w = make items')
    (hshown : ∀ items, (make items).isShown = areShown items) {items : List Value}
    (h : areShown items = true) (hitems : ∀ v ∈ items, v.isShown = true ∧ v.Stands) :
    (make items).Stands := by
  intro w rest rest' hw _ _ heq
  obtain ⟨items', rfl⟩ := hmake (type_eq_of_append ((hshown items).trans h) hw heq)
  rw [hsql, hsql] at heq
  obtain ⟨rfl, hrest⟩ := items_append_inj hcloser hitems (areShown_iff.mp (hshown items' ▸ hw))
    (List.append_cancel_left heq)
  exact ⟨rfl, hrest⟩

theorem stands_array {items : List Value} (h : areShown items = true)
    (hitems : ∀ v ∈ items, v.isShown = true ∧ v.Stands) : (array items).Stands := by
  refine stands_collection (.inl rfl) toList_sql_array (fun {_ w} hw => ?_) (fun _ => rfl) h hitems
  cases w with
  | array items' => exact ⟨items', rfl⟩
  | _ => cases hw

theorem stands_row {items : List Value} (h : areShown items = true)
    (hitems : ∀ v ∈ items, v.isShown = true ∧ v.Stands) : (row items).Stands := by
  refine stands_collection (.inr rfl) toList_sql_row (fun {_ w} hw => ?_) (fun _ => rfl) h hitems
  cases w with
  | row items' => exact ⟨items', rfl⟩
  | _ => cases hw

mutual
theorem stands : ∀ v : Value, v.isShown = true → v.Stands
  | null, _ => stands_null
  | bool b, _ => stands_bool b
  | bigInt n, _ => stands_bigInt n
  | text s, _ => stands_text s
  | array items, h => stands_array h (forall_stands items h)
  | row items, h => stands_row h (forall_stands items h)

theorem forall_stands : ∀ vs : List Value, areShown vs = true →
    ∀ v ∈ vs, v.isShown = true ∧ v.Stands
  | [], _ => nofun
  | v :: vs, h => by
    obtain ⟨hv, hvs⟩ := Bool.and_eq_true_iff.mp h
    exact List.forall_mem_cons.mpr ⟨⟨hv, stands v hv⟩, forall_stands vs hvs⟩
end

/-- Literals are unambiguous. Without doubles and geometries, two values have one literal if and only
if they are the same up to the widths of integers and the kinds of texts in them. -/
theorem sql_eq_iff {v w : Value} (hv : v.isDiscrete = true) (hw : w.isDiscrete = true) :
    v.sql = w.sql ↔ v.shown = w.shown := by
  constructor
  · intro h
    have hnone : Follows [] := nofun
    rw [← sql_shown v, ← sql_shown w, ← String.toList_inj] at h
    have hlist := congrArg (· ++ []) h
    exact (stands _ (isShown_shown v hv) (isShown_shown w hw) hnone hnone hlist).1
  · intro h
    rw [← sql_shown v, ← sql_shown w, h]

/-- A text with a quote and a comma in it is not two texts, and `1` is an integer of either width. -/
theorem sql_eq_iff_quoted :
    let one : Value := .array [.text "a', 'b", .null]
    let two : Value := .array [.textIgnoreCase "a", .text "b", .null]
    let narrow : Value := .row [.array [], .int 1]
    let wide : Value := .row [.array [], .bigInt 1]
    one.sql ≠ two.sql ∧ narrow.sql = wide.sql := by
  intro one two narrow wide
  have hone : one.isDiscrete = true := rfl
  have htwo : two.isDiscrete = true := rfl
  have hshown : one.shown ≠ two.shown := by simp [one, two, shown, shownItems]
  exact ⟨fun h => hshown ((sql_eq_iff hone htwo).mp h), (sql_eq_iff rfl rfl).mpr rfl⟩

end Value
end QueryPredicates
