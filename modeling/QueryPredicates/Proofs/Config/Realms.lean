import QueryPredicates.Config.Loading
import QueryPredicates.Proofs.Text.Plain
import Mathlib.Data.List.Find
import Mathlib.Data.List.Forall2

/-! Realms by name. Settings are checked for realms of one name by their upper-cased names, and a realm is
looked up by its lower-cased one; on all texts both come to the same, to be equal but for the case of ASCII
letters. So no name stands for two realms of settings that pass the check, and the order of the realms is
nothing to a look-up. What the check reports is the first realm whose name has been there before. -/

namespace QueryPredicates

namespace Text

/-- One character, or the two cases of one ASCII letter. -/
def SameLetter (c d : Char) : Prop :=
  c = d ∨ (65 ≤ c.toNat ∧ c.toNat ≤ 90 ∧ d.toNat = c.toNat + 32) ∨
    (65 ≤ d.toNat ∧ d.toNat ≤ 90 ∧ c.toNat = d.toNat + 32)

/-- Equal but for the case of ASCII letters. -/
def SameName (a b : String) : Prop := List.Forall₂ SameLetter a.toList b.toList

theorem sameLetter_iff_toLower {c d : Char} : SameLetter c d ↔ c.toLower = d.toLower := by
  rw [SameLetter, ← Char.toNat_inj, ← Char.toNat_inj, toNat_toLower, toNat_toLower]
  split <;> split <;> omega

theorem sameLetter_iff_toUpper {c d : Char} : SameLetter c d ↔ c.toUpper = d.toUpper := by
  rw [SameLetter, ← Char.toNat_inj, ← Char.toNat_inj, toNat_toUpper, toNat_toUpper]
  split <;> split <;> omega

theorem sameName_iff {f : Char → Char} (hf : ∀ {c d}, SameLetter c d ↔ f c = f d) {a b : String} :
    SameName a b ↔ a.toList.map f = b.toList.map f := by
  have hletter : SameLetter = fun c d => f c = f d := funext₂ fun c d => propext hf
  rw [← List.forall₂_eq_eq_eq, List.forall₂_map_left_iff, List.forall₂_map_right_iff, SameName,
    hletter]

theorem SameName.symm {a b : String} (h : SameName a b) : SameName b a := by
  rw [sameName_iff sameLetter_iff_toLower] at h ⊢
  exact h.symm

theorem SameName.trans {a b c : String} (h : SameName a b) (h' : SameName b c) : SameName a c := by
  rw [sameName_iff sameLetter_iff_toLower] at h h' ⊢
  exact h.trans h'

/-- Beyond ASCII the characters are the same. -/
theorem SameName.eq_of_not_ascii {a b : String} (h : SameName a b) {i : Nat} {c d : Char}
    (hc : a.toList[i]? = some c) (hd : b.toList[i]? = some d)
    (hbeyond : 128 ≤ c.toNat ∨ 128 ≤ d.toNat) : c = d := by
  have hletter : SameLetter c d := by
    obtain ⟨-, hget⟩ := List.forall₂_iff_get.mp h
    obtain ⟨hi, rfl⟩ := List.getElem?_eq_some_iff.mp hc
    obtain ⟨hi', rfl⟩ := List.getElem?_eq_some_iff.mp hd
    exact hget i hi hi'
  rcases hletter with h | h | h
  · exact h
  · omega
  · omega

end Text

open Text

namespace Realm

theorem isNamed_iff {r : Realm} {name : String} : r.isNamed name = true ↔ SameName r.name name := by
  rw [isNamed, beq_iff_eq, sameName_iff sameLetter_iff_toLower]

theorem key_eq_iff {r r' : Realm} : r.key = r'.key ↔ SameName r.name r'.name := by
  rw [key, key, String.ofList_inj, sameName_iff sameLetter_iff_toUpper]

/-- The realm at the position has the name of one before it. -/
def Repeats (rs : List Realm) (j : Nat) : Prop :=
  ∃ (i : Nat) (r r' : Realm), i < j ∧ rs[i]? = some r ∧ rs[j]? = some r' ∧ SameName r.name r'.name

/-- The first realm that has the name of one before it is at the position. -/
structure FirstRepeats (rs : List Realm) (j : Nat) (r : Realm) : Prop where
  at_position : rs[j]? = some r
  repeats : Repeats rs j
  first : ∀ k < j, ¬ Repeats rs k

theorem repeats_length_iff {before rs : List Realm} {r : Realm} :
    Repeats (before ++ r :: rs) before.length ↔ ∃ r' ∈ before, SameName r'.name r.name := by
  constructor
  · rintro ⟨i, r', last, hlt, hi, hlast, hname⟩
    rw [List.getElem?_append_left hlt] at hi
    obtain rfl : r = last := by simpa using hlast
    exact ⟨r', List.mem_of_getElem? hi, hname⟩
  · rintro ⟨r', hr', hname⟩
    obtain ⟨i, hi⟩ := List.mem_iff_getElem?.mp hr'
    obtain ⟨hlt, -⟩ := List.getElem?_eq_some_iff.mp hi
    exact ⟨i, r', r, hlt, (List.getElem?_append_left hlt).trans hi, by simp, hname⟩

end Realm

namespace Settings
open Realm

/-! ## Validation -/

/-- The realms before those that are still to come have no name twice, and their keys have been seen. -/
theorem firstRepeated?_spec (before rs : List Realm)
    (hbefore : ∀ k < before.length, ¬ Repeats (before ++ rs) k) :
    match firstRepeated? (before.map key).reverse rs with
    | some r => ∃ j, FirstRepeats (before ++ rs) j r
    | none => ∀ j, ¬ Repeats (before ++ rs) j := by
  induction rs generalizing before with
  | nil =>
    intro j hj
    obtain ⟨-, -, r', -, -, hr', -⟩ := id hj
    obtain ⟨hlt, -⟩ := List.getElem?_eq_some_iff.mp hr'
    exact hbefore j (by simpa using hlt) hj
  | cons r rs ih =>
    have hseen : (before.map key).reverse.contains r.key = true ↔
        Repeats (before ++ r :: rs) before.length := by
      simp [repeats_length_iff, key_eq_iff]
    rw [firstRepeated?]
    by_cases hr : Repeats (before ++ r :: rs) before.length
    · rw [if_pos (hseen.mpr hr)]
      exact ⟨before.length, by simp, hr, hbefore⟩
    · rw [if_neg (mt hseen.mp hr)]
      have hnext := ih (before ++ [r])
      simp only [List.map_append, List.map_cons, List.map_nil, List.reverse_append,
        List.reverse_singleton, List.singleton_append, List.append_assoc, List.length_append,
        List.length_singleton] at hnext
      refine hnext fun k hk => ?_
      rcases Nat.lt_succ_iff_lt_or_eq.mp hk with hk | rfl
      · exact hbefore k hk
      · exact hr

theorem firstRepeated?_nil (rs : List Realm) :
    match firstRepeated? [] rs with
    | some r => ∃ j, FirstRepeats rs j r
    | none => ∀ j, ¬ Repeats rs j :=
  firstRepeated?_spec [] rs nofun

theorem validate_eq_ok_iff {s : Settings} : s.validate = .ok () ↔ ∀ j, ¬ Repeats s.realms j := by
  have hspec := firstRepeated?_nil s.realms
  unfold validate
  cases hfirst : firstRepeated? [] s.realms with
  | none =>
    rw [hfirst] at hspec
    exact iff_of_true rfl hspec
  | some r =>
    rw [hfirst] at hspec
    obtain ⟨j, hj⟩ := hspec
    exact iff_of_false nofun fun h => h j hj.repeats

theorem validate_eq_error {s : Settings} {e : ConfigError} (h : s.validate = .error e) :
    ∃ j r, FirstRepeats s.realms j r ∧ e = .repeatedRealm r.name := by
  have hspec := firstRepeated?_nil s.realms
  unfold validate at h
  split at h
  · rename_i r hfirst
    rw [hfirst] at hspec
    obtain ⟨j, hj⟩ := hspec
    cases h
    exact ⟨j, r, hj, rfl⟩
  · cases h

/-- Settings come from text exactly if it reads as these and they pass the check. -/
theorem ofText_eq_ok_iff {read : String → Option Settings} {source : String} {s : Settings} :
    ofText read source = .ok s ↔ read source = some s ∧ s.validate = .ok () := by
  unfold ofText
  cases read source with
  | none => exact iff_of_false nofun fun h => nomatch h.1
  | some settings =>
    rw [Option.some.injEq]
    dsimp only
    cases hvalid : settings.validate with
    | error e =>
      refine iff_of_false nofun fun ⟨hread, hs⟩ => ?_
      rw [← hread, hvalid] at hs
      cases hs
    | ok u =>
      constructor
      · intro h
        cases h
        exact ⟨rfl, hvalid⟩
      · intro ⟨hread, _⟩
        exact congrArg Except.ok hread

/-! ## Looking up -/

section

variable {s : Settings} (h : s.validate = .ok ())
include h

/-- One name stands for one realm. -/
theorem eq_of_sameName {r r' : Realm} (hr : r ∈ s.realms) (hr' : r' ∈ s.realms)
    (hname : SameName r.name r'.name) : r = r' := by
  have hnone := validate_eq_ok_iff.mp h
  have hbefore {i j : Nat} {r r' : Realm} (hi : s.realms[i]? = some r) (hj : s.realms[j]? = some r')
      (hname : SameName r.name r'.name) : ¬ i < j :=
    fun hlt => hnone j ⟨i, r, r', hlt, hi, hj, hname⟩
  obtain ⟨i, hi⟩ := List.mem_iff_getElem?.mp hr
  obtain ⟨j, hj⟩ := List.mem_iff_getElem?.mp hr'
  rcases Nat.lt_trichotomy i j with hlt | rfl | hlt
  · exact absurd hlt (hbefore hi hj hname)
  · exact Option.some.inj (hi.symm.trans hj)
  · exact absurd hlt (hbefore hj hi hname.symm)

theorem subsingleton_isNamed (name : String) :
    {r ∈ s.realms | r.isNamed name = true}.Subsingleton := by
  rintro r ⟨hr, hnamed⟩ r' ⟨hr', hnamed'⟩
  exact eq_of_sameName h hr hr' ((isNamed_iff.mp hnamed).trans (isNamed_iff.mp hnamed').symm)

theorem realm?_eq_some_iff {name : String} {r : Realm} :
    s.realm? name = some r ↔ r ∈ s.realms ∧ SameName r.name name := by
  have hnamed {r : Realm} (hfind : s.realm? name = some r) : r.isNamed name = true := by
    unfold realm? at hfind
    simpa using List.find?_some hfind
  constructor
  · intro hfind
    exact ⟨List.mem_of_find?_eq_some hfind, isNamed_iff.mp (hnamed hfind)⟩
  · rintro ⟨hr, hname⟩
    have hfound : (s.realm? name).isSome = true :=
      List.find?_isSome.mpr ⟨r, hr, isNamed_iff.mpr hname⟩
    obtain ⟨r', hfind⟩ := Option.isSome_iff_exists.mp hfound
    have hr' := List.mem_of_find?_eq_some hfind
    rw [hfind, eq_of_sameName h hr' hr ((isNamed_iff.mp (hnamed hfind)).trans hname.symm)]

theorem realm?_perm {s' : Settings} (hperm : s'.realms.Perm s.realms) (name : String) :
    s'.realm? name = s.realm? name :=
  (List.find?_eq_find?_of_perm hperm.symm (subsingleton_isNamed h name)).symm

end

/-- The check fails exactly if two realms have one name but for the case of ASCII letters, and then names
the first that has the name of one before it, as that one is spelled. However text is read, settings come
from it exactly if it reads as these and no realm in them has the name of one before it. In settings that
pass the check each spelling of a realm's name finds that realm and nothing else does, in whichever order
the realms are. Both the check and the look-up go by that sameness of names, which is exact beyond ASCII. -/
theorem realms_apart (s : Settings) :
    ((∃ e, s.validate = .error e) ↔ ∃ j, Repeats s.realms j) ∧
    (∀ e, s.validate = .error e → ∃ j r, FirstRepeats s.realms j r ∧ e = .repeatedRealm r.name) ∧
    (∀ read source, ofText read source = .ok s ↔
      read source = some s ∧ ∀ j, ¬ Repeats s.realms j) ∧
    (s.validate = .ok () →
      (∀ name r, s.realm? name = some r ↔
        ∃ i : Nat, s.realms[i]? = some r ∧ SameName r.name name) ∧
      ∀ s' : Settings, s'.realms.Perm s.realms → ∀ name, s'.realm? name = s.realm? name) ∧
    (∀ (r r' : Realm) (name : String), (r.key = r'.key ↔ SameName r.name r'.name) ∧
      (r.isNamed name = true ↔ SameName r.name name)) ∧
    ∀ a b : String, SameName a b → ∀ (i : Nat) (c d : Char), a.toList[i]? = some c →
      b.toList[i]? = some d → 128 ≤ c.toNat ∨ 128 ≤ d.toNat → c = d := by
  refine ⟨⟨?_, ?_⟩, fun e => validate_eq_error, fun read source => ?_,
    fun h => ⟨fun name r => ?_, fun s' hperm => ?_⟩, fun r r' name => ⟨key_eq_iff, isNamed_iff⟩,
    fun a b h i c d => h.eq_of_not_ascii⟩
  · rintro ⟨e, he⟩
    obtain ⟨j, r, hfirst, -⟩ := validate_eq_error he
    exact ⟨j, hfirst.repeats⟩
  · rintro ⟨j, hj⟩
    cases hvalid : s.validate with
    | error e => exact ⟨e, rfl⟩
    | ok u => exact absurd hj (validate_eq_ok_iff.mp hvalid j)
  · rw [ofText_eq_ok_iff, validate_eq_ok_iff]
  · rw [realm?_eq_some_iff h, List.mem_iff_getElem?, exists_and_right]
  · exact realm?_perm h hperm

/-- The Kelvin sign is no ASCII letter, so it is not the small k. -/
theorem realms_apart_kelvin :
    let kelvin : Realm := ⟨"Realm-\u212A", "v", []⟩
    let small : Realm := ⟨"realm-k", "w", []⟩
    let capital : Realm := ⟨"REALM-K", "x", []⟩
    let s : Settings := { realms := [kelvin, small] }
    let s' : Settings := { realms := [small, kelvin] }
    let twice : Settings := { realms := [small, kelvin, capital] }
    s.realm? "REALM-k" = some small ∧ s'.realm? "REALM-k" = some small ∧
      twice.validate = .error (.repeatedRealm "REALM-K") ∧
      ∃ j r, FirstRepeats twice.realms j r ∧ r.name = "REALM-K" := by
  intro kelvin small capital s s' twice
  have hvalid : s.validate = .ok () := by decide
  obtain ⟨-, -, -, hlook, -⟩ := realms_apart s
  obtain ⟨hfind, hperm⟩ := hlook hvalid
  have hsmall : s.realm? "REALM-k" = some small := by
    refine (hfind _ _).mpr ⟨1, rfl, ?_⟩
    rw [sameName_iff sameLetter_iff_toLower]
    decide
  have herror : twice.validate = .error (.repeatedRealm "REALM-K") := by decide
  obtain ⟨-, hreport, -⟩ := realms_apart twice
  obtain ⟨j, r, hfirst, hname⟩ := hreport _ herror
  exact ⟨hsmall, (hperm s' (List.Perm.swap _ _ _) _).trans hsmall, herror, j, r, hfirst,
    (ConfigError.repeatedRealm.inj hname).symm⟩

end Settings
end QueryPredicates
