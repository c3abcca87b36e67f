import QueryPredicates.Proofs.Value.Accord

/-! Values of one kind are ranked. The scalars of one type compare as their places in one order of
that type, and collections whose items are ranked compare as lists of places do: by the first items
that differ, or by their lengths first. So neither order has a gap or a cycle on values of one kind
that hold no NULL, and sameness is an equivalence on them, NULL or not. -/

namespace QueryPredicates
open Std

theorem transCmp_comap {α β : Type} (cmp : β → β → Ordering) [TransCmp cmp] (f : α → β) :
    TransCmp fun a b => cmp (f a) (f b) where
  eq_swap {a b} := show cmp (f a) (f b) = (cmp (f b) (f a)).swap from OrientedCmp.eq_swap
  isLE_trans {a _ c} hab hbc :=
    show (cmp (f a) (f c)).isLE = true from TransCmp.isLE_trans hab hbc

/-! ## Doubles and geometries -/

/-- The place of a double in the order: that of its number, or of its bits if it has none. -/
def Double.place (x : Double) : Int := if x.isNaN then x.totalRank else x.rank

/-- A NaN lies beyond a number, whether that is placed by its value or by its bits. -/
theorem Double.totalRank_apart {x y : Double} (hx : x.isNaN = false) (hy : y.isNaN = true) :
    x.rank < y.totalRank ∧ x.totalRank < y.totalRank ∨
      y.totalRank < x.rank ∧ y.totalRank < x.totalRank := by
  simp only [isNaN, decide_eq_true_eq, decide_eq_false_iff_not] at hx hy
  unfold rank totalRank
  cases x.negative <;> cases y.negative <;>
    simp only [Bool.false_eq_true, if_false, if_true] <;> omega

theorem Double.order_eq_compare_place (x y : Double) : x.order y = compare x.place y.place := by
  unfold order order? place
  cases hx : x.isNaN <;> cases hy : y.isNaN
  · rfl
  · show compare x.totalRank y.totalRank = compare x.rank y.totalRank
    rcases totalRank_apart hx hy with ⟨h, h'⟩ | ⟨h, h'⟩
    · rw [Int.compare_eq_lt.mpr h, Int.compare_eq_lt.mpr h']
    · rw [Int.compare_eq_gt.mpr h, Int.compare_eq_gt.mpr h']
  · show compare x.totalRank y.totalRank = compare x.totalRank y.rank
    rcases totalRank_apart hy hx with ⟨h, h'⟩ | ⟨h, h'⟩
    · rw [Int.compare_eq_gt.mpr h, Int.compare_eq_gt.mpr h']
    · rw [Int.compare_eq_lt.mpr h, Int.compare_eq_lt.mpr h']
  · rfl

instance : TransCmp Double.order := by
  have h : Double.order = fun x y => compare x.place y.place :=
    funext fun x => funext (Double.order_eq_compare_place x)
  rw [h]
  exact transCmp_comap compare Double.place

instance : TransCmp Point.order := by
  have hx := transCmp_comap Double.order Point.x
  have hy := transCmp_comap Double.order Point.y
  exact inferInstanceAs
    (TransCmp (compareLex (fun p q : Point => p.x.order q.x) fun p q => p.y.order q.y))

theorem Geometry.orderPoints_eq : ∀ ps qs : List Point,
    orderPoints ps qs = List.compareLex Point.order ps qs
  | [], [] | [], _ :: _ | _ :: _, [] => by simp only [orderPoints, List.compareLex]
  | p :: ps, q :: qs => by
    rw [orderPoints, List.compareLex_cons_cons, orderPoints_eq ps qs]

instance : TransCmp Geometry.order := by
  have hshape := transCmp_comap (compare : Nat → Nat → Ordering) fun g : Geometry => g.shape.rank
  have hpoints := transCmp_comap (List.compareLex Point.order) Geometry.points
  have h : Geometry.order = compareLex (fun g h => compare g.shape.rank h.shape.rank)
      fun g h => List.compareLex Point.order g.points h.points := by
    funext g h
    rw [Geometry.order, Geometry.orderPoints_eq]
    rfl
  rw [h]
  infer_instance

namespace Value

/-! ## Ranking -/

/-- The values of a set compare, as in one total preorder of all values. -/
def RankedOn (P : Value → Prop) (order : Value → Value → Option Ordering) : Prop :=
  ∃ cmp : Value → Value → Ordering, TransCmp cmp ∧ ∀ a b, P a → P b → order a b = some (cmp a b)

/-- Values are ranked where they compare as their keys do. -/
theorem RankedOn.of_key {β : Type} {P : Value → Prop} {order : Value → Value → Option Ordering}
    (cmp : β → β → Ordering) [TransCmp cmp] (key : Value → β)
    (h : ∀ a b, P a → P b → order a b = some (cmp (key a) (key b))) : RankedOn P order :=
  ⟨fun a b => cmp (key a) (key b), transCmp_comap cmp key, h⟩

/-- The order finds the first value at most the second. -/
def AtMost (order : Value → Value → Option Ordering) (a b : Value) : Prop :=
  order a b = some .lt ∨ order a b = some .eq

/-- All values of a set compare, and as a total preorder: in whichever order two values are taken, they
stand in one and the same way to each other. -/
structure TotalPreorderOn (P : Value → Prop) (order : Value → Value → Option Ordering) : Prop where
  compares : ∀ a b, P a → P b → (order a b).isSome = true
  swap : ∀ a b, P a → P b → order b a = (order a b).map Ordering.swap
  refl : ∀ a, P a → order a a = some .eq
  total : ∀ a b, P a → P b → AtMost order a b ∨ AtMost order b a
  antisymm : ∀ a b, P a → P b → AtMost order a b → AtMost order b a → order a b = some .eq
  trans : ∀ a b c, P a → P b → P c → AtMost order a b → AtMost order b c → AtMost order a c

theorem RankedOn.totalPreorderOn {P : Value → Prop} {order : Value → Value → Option Ordering}
    (h : RankedOn P order) : TotalPreorderOn P order := by
  obtain ⟨cmp, _, hcmp⟩ := h
  have hatMost (a b : Value) (ha : P a) (hb : P b) : AtMost order a b ↔ (cmp a b).isLE = true := by
    rw [AtMost, hcmp a b ha hb, Option.some.injEq, Option.some.injEq,
      Ordering.isLE_iff_eq_lt_or_eq_eq]
  constructor
  case compares =>
    intro a b ha hb
    rw [hcmp a b ha hb]
    rfl
  case swap =>
    intro a b ha hb
    rw [hcmp b a hb ha, hcmp a b ha hb, Option.map_some, Option.some.injEq]
    exact OrientedCmp.eq_swap
  case refl =>
    intro a ha
    have hself : cmp a a = .eq := ReflCmp.compare_self
    rw [hcmp a a ha ha, hself]
  case total =>
    intro a b ha hb
    have hswap : cmp b a = (cmp a b).swap := OrientedCmp.eq_swap
    rw [hatMost a b ha hb, hatMost b a hb ha, hswap]
    cases cmp a b <;> simp
  case antisymm =>
    intro a b ha hb hab hba
    rw [hatMost a b ha hb] at hab
    rw [hatMost b a hb ha] at hba
    rw [hcmp a b ha hb, OrientedCmp.isLE_antisymm hab hba]
  case trans =>
    intro a b c ha hb hc hab hbc
    rw [hatMost a b ha hb] at hab
    rw [hatMost b c hb hc] at hbc
    rw [hatMost a c ha hc]
    exact TransCmp.isLE_trans hab hbc

/-! ## Scalars -/

/-- Where a scalar stands among those of its type. -/
structure Place where
  number : Int
  chars : List Char
  geometry : Geometry

def Place.order (p q : Place) : Ordering :=
  (compare p.number q.number).then ((compare p.chars q.chars).then (p.geometry.order q.geometry))

instance : TransCmp Place.order := by
  have hnumber := transCmp_comap (compare : Int → Int → Ordering) Place.number
  have hchars := transCmp_comap (compare : List Char → List Char → Ordering) Place.chars
  have hgeometry := transCmp_comap Geometry.order Place.geometry
  exact inferInstanceAs (TransCmp (compareLex (fun p q : Place => compare p.number q.number)
    (compareLex (fun p q => compare p.chars q.chars) fun p q => p.geometry.order q.geometry)))

/-- The place of a scalar; of no use for other values. -/
def place : Value → Place
  | bool b => ⟨b.toNat, [], default⟩
  | int n => ⟨n.toInt, [], default⟩
  | bigInt n => ⟨n.toInt, [], default⟩
  | double x => ⟨x.place, [], default⟩
  | text s => ⟨0, s.toList, default⟩
  | textIgnoreCase s => ⟨0, folded s, default⟩
  | geometry g => ⟨0, [], g⟩
  | _ => ⟨0, [], default⟩

theorem orderScalars_eq_place {a b : Value} (ha : a.type.isScalar = true) (hb : b.type = a.type) :
    orderScalars a b = some (a.place.order b.place) := by
  have hbool (x y : Bool) : compare (x.toNat : Int) y.toNat = compare x.toNat y.toNat := by
    cases x <;> cases y <;> rfl
  cases a <;> cases b <;> first
    | contradiction
    | simp only [orderScalars, place, Place.order, hbool, Double.order_eq_compare_place,
        ReflCmp.compare_self, Ordering.then_eq, Ordering.eq_then]

/-- Scalars of one type are ranked. -/
theorem orderScalars_rankedOn {type : SqlType} (h : type.isScalar = true) :
    RankedOn (fun v => v.type = type) orderScalars := by
  refine .of_key Place.order place fun a b ha hb => ?_
  subst ha
  exact orderScalars_eq_place h hb

/-! ## Collections -/

/-- How lists compare whose items do: by the first that differ, or by their lengths first. -/
def listOrder (cmp : Value → Value → Ordering) : Mode → List Value → List Value → Ordering
  | .ordering => List.compareLex cmp
  | .equality => compareLex (compareOn List.length) (List.compareLex cmp)

instance (cmp : Value → Value → Ordering) [TransCmp cmp] (mode : Mode) :
    TransCmp (listOrder cmp mode) := by
  cases mode with
  | ordering => exact inferInstanceAs (TransCmp (List.compareLex cmp))
  | equality =>
    exact inferInstanceAs (TransCmp (compareLex (compareOn List.length) (List.compareLex cmp)))

section
variable {order : Value → Value → Option Ordering} {cmp : Value → Value → Ordering}

theorem orderItems_eq_compareLex : ∀ {as bs : List Value},
    (∀ a ∈ as, ∀ b ∈ bs, order a b = some (cmp a b)) →
      orderItems order as bs = some (List.compareLex cmp as bs)
  | [], [], _ | [], _ :: _, _ | _ :: _, [], _ => by simp only [orderItems, List.compareLex]
  | a :: as, b :: bs, h => by
    have htail : orderItems order as bs = some (List.compareLex cmp as bs) :=
      orderItems_eq_compareLex fun x hx y hy =>
        h x (List.mem_cons_of_mem a hx) y (List.mem_cons_of_mem b hy)
    rw [orderItems, h a List.mem_cons_self b List.mem_cons_self, List.compareLex_cons_cons, htail]
    cases cmp a b <;> rfl

theorem equateItems_eq_compareLex : ∀ {as bs : List Value}, as.length = bs.length →
    (∀ a ∈ as, ∀ b ∈ bs, order a b = some (cmp a b)) →
      equateItems order as bs = some (List.compareLex cmp as bs)
  | [], [], _, _ => by simp only [equateItems, List.compareLex]
  | a :: as, b :: bs, hlen, h => by
    have htail : equateItems order as bs = some (List.compareLex cmp as bs) :=
      equateItems_eq_compareLex (Nat.succ.inj hlen) fun x hx y hy =>
        h x (List.mem_cons_of_mem a hx) y (List.mem_cons_of_mem b hy)
    rw [equateItems, h a List.mem_cons_self b List.mem_cons_self, List.compareLex_cons_cons, htail]
    cases cmp a b <;> rfl

theorem compareItems_eq_listOrder (mode : Mode) {as bs : List Value}
    (h : ∀ a ∈ as, ∀ b ∈ bs, order a b = some (cmp a b)) :
    compareItems mode order as bs = some (listOrder cmp mode as bs) := by
  cases mode with
  | ordering => exact orderItems_eq_compareLex h
  | equality =>
    show (if as.length = bs.length then equateItems order as bs else some _) =
      some ((compare as.length bs.length).then (List.compareLex cmp as bs))
    split
    · rename_i hlen
      rw [equateItems_eq_compareLex hlen h, Nat.compare_eq_eq.mpr hlen, Ordering.eq_then]
    · rename_i hlen
      have hne : compare as.length bs.length ≠ .eq := fun he => hlen (Nat.compare_eq_eq.mp he)
      cases hc : compare as.length bs.length <;> first | rfl | exact absurd hc hne

end

/-- Collections of ranked items are ranked. -/
theorem RankedOn.items {P : Value → Prop} {order : Value → Value → Option Ordering}
    (h : RankedOn P order) (mode : Mode) :
    RankedOn (fun v => ∀ x ∈ v.items, P x) fun a b => compareItems mode order a.items b.items := by
  obtain ⟨cmp, _, hcmp⟩ := h
  refine .of_key (listOrder cmp mode) Value.items fun a b ha hb => ?_
  exact compareItems_eq_listOrder mode fun x hx y hy => hcmp x y (ha x hx) (hb y hy)

/-- A set that lies in a ranked one, and where the order is the same, is ranked. -/
theorem RankedOn.mono {P Q : Value → Prop} {order order' : Value → Value → Option Ordering}
    (h : RankedOn P order) (hsub : ∀ v, Q v → P v)
    (hsame : ∀ a b, Q a → Q b → order' a b = order a b) : RankedOn Q order' := by
  obtain ⟨cmp, hcmp, heq⟩ := h
  refine ⟨cmp, hcmp, fun a b ha hb => ?_⟩
  rw [hsame a b ha hb, heq a b (hsub a ha) (hsub b hb)]

/-! ## Values of one type -/

/-- Scalars of one type are compared as they are. -/
theorem compare_scalars {a b : Value} (ha : a.type.isScalar = true) (hb : b.type = a.type) :
    (∀ mode, compareAs mode a b = orderScalars a b) ∧
      isSame a b = (orderScalars a b == some .eq) := by
  have hanull := isNull_of_isScalar ha
  have hbnull : b.isNull = false := isNull_of_isScalar (hb ▸ ha)
  have hc : ¬(a.type = .array ∨ a.type = .row) := by
    rintro (h | h) <;> rw [h] at ha <;> cases ha
  constructor
  · intro mode
    rw [compareAs_eq mode hanull hbnull, align_of_type_eq hb]
    exact (aligned_of_scalars b hc mode).1
  · rw [isSame_eq hanull hbnull, align_of_type_eq hb]
    exact (aligned_of_scalars b hc .equality).2

/-- Collections of one type are compared item by item. -/
theorem compare_collections {a b : Value} (ha : a.type = .array ∨ a.type = .row)
    (hb : b.type = a.type) :
    (∀ mode, compareAs mode a b = compareItems mode (compareAs mode) a.items b.items) ∧
      isSame a b = sameItems isSame a.items b.items := by
  have hnull {v : Value} (hv : v.type = .array ∨ v.type = .row) : v.isNull = false := by
    cases v <;> first | rfl | simp [type] at hv
  have hbnull := hnull (hb ▸ ha)
  constructor
  · intro mode
    rw [compareAs_eq mode (hnull ha) hbnull, align_of_type_eq hb]
    exact (aligned_of_collections hb ha mode).1
  · rw [isSame_eq (hnull ha) hbnull, align_of_type_eq hb]
    exact (aligned_of_collections hb ha .equality).2

/-! ## Sameness -/

theorem isNull_eq_of_isSame {a b : Value} (h : isSame a b = true) : a.isNull = b.isNull := by
  cases ha : a.isNull with
  | true =>
    rw [isNull_iff.mp ha, isSame_null_left] at h
    exact h.symm
  | false =>
    refine (Bool.eq_false_iff.mpr fun hb => ?_).symm
    rw [isNull_iff.mp hb, isSame_null_right, ha] at h
    cases h

/-- Sameness passes on if it does among values that are not NULL. -/
theorem isSame_trans_of_not_null {a b c : Value} (hab : isSame a b = true) (hbc : isSame b c = true)
    (h : a.isNull = false → b.isNull = false → c.isNull = false → isSame a c = true) :
    isSame a c = true := by
  have hb := isNull_eq_of_isSame hab
  have hc := hb.trans (isNull_eq_of_isSame hbc)
  cases ha : a.isNull with
  | true =>
    rw [isNull_iff.mp ha, isSame_null_left, ← hc]
    exact ha
  | false => exact h ha (hb ▸ ha) (hc ▸ ha)

theorem sameItems_trans {P : Value → Prop} {same : Value → Value → Bool}
    (h : ∀ a b c, P a → P b → P c → same a b = true → same b c = true → same a c = true) :
    ∀ {as bs cs : List Value}, (∀ a ∈ as, P a) → (∀ b ∈ bs, P b) → (∀ c ∈ cs, P c) →
      sameItems same as bs = true → sameItems same bs cs = true → sameItems same as cs = true
  | [], [], [], _, _, _, _, _ => rfl
  | a :: as, b :: bs, c :: cs, has, hbs, hcs, hab, hbc => by
    rw [sameItems, Bool.and_eq_true_iff] at hab hbc ⊢
    rw [List.forall_mem_cons] at has hbs hcs
    refine ⟨h a b c has.1 hbs.1 hcs.1 hab.1 hbc.1, ?_⟩
    exact sameItems_trans h has.2 hbs.2 hcs.2 hab.2 hbc.2

end Value

/-! ## Kinds -/

/-- A kind of values: the scalars of one type, or the arrays or the rows of one kind. -/
inductive Kind where
  | scalar (type : SqlType) (h : type.isScalar = true)
  | collection (type : SqlType) (h : type = .array ∨ type = .row) (item : Kind)

namespace Kind
open Value

/-- The values of a kind; NULL is of every kind. -/
inductive Holds : Kind → Value → Prop
  | null (k : Kind) : Holds k .null
  | scalar {type : SqlType} (h : type.isScalar = true) {v : Value} (hv : v.type = type) :
      Holds (.scalar type h) v
  | collection {type : SqlType} (h : type = .array ∨ type = .row) {k : Kind} {v : Value}
      (hv : v.type = type) (hitems : ∀ x ∈ v.items, Holds k x) : Holds (.collection type h k) v

theorem Holds.type_eq {type : SqlType} {h : type.isScalar = true} {v : Value}
    (hv : (Kind.scalar type h).Holds v) (hnull : v.isNull = false) : v.type = type := by
  cases hv with
  | null => cases hnull
  | scalar _ hv => exact hv

theorem Holds.items {type : SqlType} {h : type = .array ∨ type = .row} {k : Kind} {v : Value}
    (hv : (Kind.collection type h k).Holds v) (hnull : v.isNull = false) :
    v.type = type ∧ ∀ x ∈ v.items, k.Holds x := by
  cases hv with
  | null => cases hnull
  | collection _ hv hitems => exact ⟨hv, hitems⟩

/-- The values of a kind that hold no NULL. -/
def Fills (k : Kind) (v : Value) : Prop := k.Holds v ∧ v.isNullFree = true

/-- Values of one kind that hold no NULL are ranked. -/
theorem rankedOn (k : Kind) (mode : Mode) : RankedOn k.Fills (compareAs mode) := by
  induction k with
  | scalar type h =>
    have htype {v : Value} (hv : (Kind.scalar type h).Fills v) : v.type = type :=
      hv.1.type_eq (isNull_of_isNullFree hv.2)
    refine (orderScalars_rankedOn h).mono (fun v hv => htype hv) fun a b ha hb => ?_
    exact (compare_scalars ((htype ha).symm ▸ h) ((htype hb).trans (htype ha).symm)).1 mode
  | collection type h k ih =>
    have hitems {v : Value} (hv : (Kind.collection type h k).Fills v) :=
      hv.1.items (isNull_of_isNullFree hv.2)
    have hfill (v : Value) (hv : (Kind.collection type h k).Fills v) : ∀ x ∈ v.items, k.Fills x :=
      fun x hx => ⟨(hitems hv).2 x hx, isNullFree_items hv.2 x hx⟩
    refine (ih.items mode).mono hfill fun a b ha hb => ?_
    have hat := (hitems ha).1
    exact (compare_collections (hat.symm ▸ h) ((hitems hb).1.trans hat.symm)).1 mode

/-- Sameness passes on among the values of one kind. -/
theorem isSame_trans (k : Kind) : ∀ a b c, k.Holds a → k.Holds b → k.Holds c →
    isSame a b = true → isSame b c = true → isSame a c = true := by
  induction k with
  | scalar type h =>
    intro a b c ha hb hc hab hbc
    refine isSame_trans_of_not_null hab hbc fun hna hnb hnc => ?_
    have hta := ha.type_eq hna
    have htb := hb.type_eq hnb
    have htc := hc.type_eq hnc
    have hsame {x y : Value} (hx : x.type = type) (hy : y.type = type) :
        isSame x y = true ↔ x.canonical = y.canonical := by
      have hscalar : x.type.isScalar = true := hx.symm ▸ h
      have htype : y.type = x.type := hy.trans hx.symm
      rw [(compare_scalars hscalar htype).2, beq_iff_eq, orderScalars_eq_iff hscalar htype]
    rw [hsame hta htb] at hab
    rw [hsame htb htc] at hbc
    rw [hsame hta htc]
    exact hab.trans hbc
  | collection type h k ih =>
    intro a b c ha hb hc hab hbc
    refine isSame_trans_of_not_null hab hbc fun hna hnb hnc => ?_
    obtain ⟨hta, hia⟩ := ha.items hna
    obtain ⟨htb, hib⟩ := hb.items hnb
    obtain ⟨htc, hic⟩ := hc.items hnc
    have hsame {x y : Value} (hx : x.type = type) (hy : y.type = type) :
        isSame x y = sameItems isSame x.items y.items :=
      (compare_collections (hx.symm ▸ h) (hy.trans hx.symm)).2
    rw [hsame hta htb] at hab
    rw [hsame htb htc] at hbc
    rw [hsame hta htc]
    exact sameItems_trans ih hia hib hic hab hbc

/-- Values of one kind that hold no NULL all compare, in each of the two modes, and as a total
preorder; and sameness is an equivalence on the values of one kind, with NULL at any depth. -/
theorem values_ranked (k : Kind) :
    (∀ mode, TotalPreorderOn k.Fills (compareAs mode)) ∧
      Equivalence fun a b : { v : Value // k.Holds v } => isSame a.val b.val = true := by
  refine ⟨fun mode => (k.rankedOn mode).totalPreorderOn, ?_, ?_, ?_⟩
  · intro a
    exact isSame_self a.val
  · intro a b hab
    rw [isSame_comm]
    exact hab
  · intro a b c hab hbc
    exact k.isSame_trans a.val b.val c.val a.property b.property c.property hab hbc

/-- The empty array is below one of a negative NaN, and that is below one of a zero and a NaN. -/
theorem double_arrays_ranked :
    let negativeNaN : Double := ⟨0xFFF8000000000000⟩
    let negativeZero : Double := ⟨0x8000000000000000⟩
    let positiveNaN : Double := ⟨0x7FF8000000000000⟩
    AtMost (compareAs .ordering) (array []) (array [double negativeZero, double positiveNaN]) ∧
      compareAs .equality (array [double negativeNaN]) (array [double negativeNaN]) = some .eq := by
  intro negativeNaN negativeZero positiveNaN
  let k : Kind := .collection .array (.inl rfl) (.scalar .double rfl)
  have hfill (xs : List Double) : k.Fills (array (xs.map double)) := by
    refine ⟨.collection _ rfl fun x hx => ?_, areNullFree_iff.mpr fun x hx => ?_⟩ <;>
      obtain ⟨d, -, rfl⟩ := List.mem_map.mp hx
    · exact .scalar rfl rfl
    · rfl
  have hempty := hfill []
  have hbelow := hfill [negativeNaN]
  have habove := hfill [negativeZero, positiveNaN]
  obtain ⟨hranked, -⟩ := values_ranked k
  refine ⟨(hranked .ordering).trans _ _ _ hempty hbelow habove ?_ ?_,
    (hranked .equality).refl _ hbelow⟩
  · exact .inl (by decide)
  · exact .inl (by decide)

end Kind
end QueryPredicates
