import EndpointPayload.Route.Path
import Mathlib.Data.List.DropRight
import Mathlib.Data.List.TakeWhile
import Mathlib.Tactic

/-!
# Joined paths

Normal paths start with exactly one slash, and both `normalize` and `join` give normal paths.  A
front of slashes alone leaves a normal path as it is when the path is joined behind it, and every
other front makes the path longer.
-/

namespace EndpointPayload
namespace RoutePath

/-- Nothing but slashes. -/
def IsSlashes (path : String) : Prop := ∀ c ∈ path.toList, c = '/'

/-- Exactly one slash at the front. -/
def IsNormal (path : String) : Prop := normalize path = path

section Slashes

variable {cs : List Char}

theorem trimStart_eq_nil_iff : trimStart cs = [] ↔ ∀ c ∈ cs, c = '/' := by
  simp [trimStart, List.dropWhile_eq_nil_iff]

theorem trimStart_slash : trimStart ('/' :: cs) = trimStart cs := by
  simp [trimStart]

theorem trimStart_trimStart : trimStart (trimStart cs) = trimStart cs :=
  List.dropWhile_idempotent _ cs

/-- Taking the slashes from the front leaves slashes alone only where there was nothing else. -/
theorem forall_mem_trimStart_iff : (∀ c ∈ trimStart cs, c = '/') ↔ ∀ c ∈ cs, c = '/' := by
  rw [← trimStart_eq_nil_iff, trimStart_trimStart, trimStart_eq_nil_iff]

theorem forall_mem_trimEnd_iff : (∀ c ∈ trimEnd cs, c = '/') ↔ ∀ c ∈ cs, c = '/' := by
  have hreverse : (∀ c ∈ trimEnd cs, c = '/') ↔ ∀ c ∈ trimStart cs.reverse, c = '/' := by
    simp [trimEnd]
  rw [hreverse, forall_mem_trimStart_iff]
  simp

theorem trimEnd_eq_nil_iff : trimEnd cs = [] ↔ ∀ c ∈ cs, c = '/' := by
  rw [trimEnd, List.reverse_eq_nil_iff, trimStart_eq_nil_iff]
  simp

end Slashes

theorem isNormal_normalize (path : String) : IsNormal (normalize path) := by
  simp [IsNormal, normalize, trimStart_slash, trimStart_trimStart]

theorem isNormal_join (front back : String) : IsNormal (join front back) :=
  isNormal_normalize _

section Front

variable {path : String}

/-- One slash, and not a second one behind it. -/
def StartsWithOneSlash (path : String) : Prop :=
  ∃ rest, path.toList = '/' :: rest ∧ rest.head? ≠ some '/'

/-- The path with some number of slashes at the front in place of its own. -/
def withSlashes (n : Nat) (path : String) : String :=
  String.ofList (List.replicate n '/' ++ trimStart path.toList)

theorem head?_trimStart (cs : List Char) : (trimStart cs).head? ≠ some '/' := by
  intro h
  have hfirst := List.head?_dropWhile_not (fun c => c = '/') cs
  rw [trimStart] at h
  simp [h] at hfirst

theorem trimStart_of_head? {cs : List Char} (h : cs.head? ≠ some '/') : trimStart cs = cs := by
  cases cs with
  | nil => rfl
  | cons c rest =>
      have hc : c ≠ '/' := by simpa using h
      simp [trimStart, hc]

theorem trimStart_replicate (n : Nat) (cs : List Char) :
    trimStart (List.replicate n '/' ++ cs) = trimStart cs := by
  induction n with
  | zero => rfl
  | succ n ih => rw [List.replicate_succ, List.cons_append, trimStart_slash, ih]

/-- Behind its one slash, a normal path is what is left without slashes at the front. -/
theorem IsNormal.toList_eq (h : IsNormal path) :
    path.toList = '/' :: trimStart path.toList := by
  have hlist := congrArg String.toList h
  simpa [normalize] using hlist.symm

theorem isNormal_iff : IsNormal path ↔ StartsWithOneSlash path := by
  constructor
  · intro h
    exact ⟨trimStart path.toList, h.toList_eq, head?_trimStart _⟩
  · rintro ⟨rest, hpath, hrest⟩
    rw [IsNormal, normalize, hpath, trimStart_slash, trimStart_of_head? hrest, ← hpath,
      String.ofList_toList]

/-- The number of slashes at the front does not matter. -/
theorem normalize_withSlashes (n : Nat) (path : String) :
    normalize (withSlashes n path) = normalize path := by
  rw [normalize, withSlashes, String.toList_ofList, trimStart_replicate, trimStart_trimStart]
  rfl

end Front

section Join

variable {front back : String}

theorem join_of_isSlashes
    (hfront : IsSlashes front)
    (hback : IsNormal back) :
    join front back = back := by
  have htrim : trimEnd front.toList = [] := trimEnd_eq_nil_iff.mpr hfront
  have hseam : seam front.toList back.toList = trimStart back.toList := by
    simp [seam, htrim]
  rw [join, hseam, normalize, String.toList_ofList, trimStart_trimStart]
  exact hback

/-- A front with anything but slashes in it makes a path longer. -/
theorem length_lt_length_join
    (hfront : ¬ IsSlashes front)
    (hback : IsNormal back) :
    back.toList.length < (join front back).toList.length := by
  have hne : trimEnd front.toList ≠ [] := fun h => hfront (trimEnd_eq_nil_iff.mp h)
  have hstart : trimStart (trimEnd front.toList) ≠ [] := fun h =>
    hfront (forall_mem_trimEnd_iff.mp (trimStart_eq_nil_iff.mp h))
  have hjoin : (join front back).toList =
      '/' :: trimStart (seam front.toList back.toList) := by
    simp [join, normalize]
  have hlength : back.toList.length = (trimStart back.toList).length + 1 :=
    congrArg List.length hback.toList_eq
  rw [hjoin, hlength, List.length_cons, Nat.add_lt_add_iff_right]
  by_cases hnil : trimStart back.toList = []
  · have hseam : seam front.toList back.toList = trimEnd front.toList := by
      simp [seam, hne, hnil]
    rw [hseam, hnil]
    exact List.length_pos_of_ne_nil hstart
  · have hseam : seam front.toList back.toList =
        trimEnd front.toList ++ '/' :: trimStart back.toList := by
      simp [seam, hne, hnil]
    have happend : trimStart (trimEnd front.toList ++ '/' :: trimStart back.toList) =
        trimStart (trimEnd front.toList) ++ '/' :: trimStart back.toList := by
      have hleft : ¬ (trimStart (trimEnd front.toList)).isEmpty := by simpa using hstart
      rw [trimStart, List.dropWhile_append]
      rw [trimStart] at hleft
      rw [if_neg hleft]
      rfl
    rw [hseam, happend, List.length_append, List.length_cons]
    omega

/-- A normal path stays the same behind slashes and behind nothing else. -/
theorem join_eq_back_iff (hback : IsNormal back) : join front back = back ↔ IsSlashes front := by
  constructor
  · intro hjoin
    by_contra hfront
    have hlength := length_lt_length_join hfront hback
    rw [hjoin] at hlength
    exact Nat.lt_irrefl _ hlength
  · intro hfront
    exact join_of_isSlashes hfront hback

end Join

end RoutePath
end EndpointPayload
