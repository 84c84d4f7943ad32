import Labrys.Foundations.JsonText
import Labrys.Foundations.Selection

/-! # Values as a map keeps them

Putting the names in order is done once, keeps what stands under a name, and leaves nothing to do in
the parts of a value. -/

namespace Labrys.Foundations.Json
set_option autoImplicit false

/-- In the order of the names. -/
def sortMembers (members : List (String × Json)) : List (String × Json) :=
  members.insertionSort fun a b => a.1 ≤ b.1

theorem normal_object (members : List (String × Json)) :
    (object members).normal =
      object (sortMembers (members.map fun member => (member.1, member.2.normal))) := by
  rw [normal, normalMembers_eq]
  rfl

theorem sortMembers_map (f : Json → Json) (members : List (String × Json)) :
    (sortMembers members).map (fun member => (member.1, f member.2)) =
      sortMembers (members.map fun member => (member.1, f member.2)) := by
  refine List.map_insertionSort (fun a b : String × Json => a.1 ≤ b.1)
    (fun a b : String × Json => a.1 ≤ b.1) (fun member => (member.1, f member.2)) members ?_
  exact fun _ _ _ _ => Iff.rfl

theorem sortMembers_sortMembers (members : List (String × Json)) :
    sortMembers (sortMembers members) = sortMembers members := by
  have : Std.Total fun a b : String × Json => a.1 ≤ b.1 := ⟨fun a b => String.le_total a.1 b.1⟩
  have : IsTrans (String × Json) fun a b => a.1 ≤ b.1 := ⟨fun _ _ _ => String.le_trans⟩
  exact List.Pairwise.insertionSort_eq (List.pairwise_insertionSort _ members)

theorem normal_normal (json : Json) : json.normal.normal = json.normal := by
  induction json using induct with
  | array items ih =>
    rw [normal, normalItems_eq, normal, normalItems_eq, List.map_map]
    exact congrArg array (List.map_congr_left ih)
  | object members ih =>
    have hparts : (members.map fun member => (member.1, member.2.normal)).map
        (fun member => (member.1, member.2.normal)) =
        members.map fun member => (member.1, member.2.normal) := by
      rw [List.map_map]
      exact List.map_congr_left fun member hmember => Prod.ext rfl (ih member hmember)
    rw [normal_object, normal_object, sortMembers_map, hparts, sortMembers_sortMembers]
  | _ => rfl

/-- Names in order over values as a map keeps them. -/
theorem normal_of_sorted {members : List (String × Json)}
    (hsorted : members.Pairwise fun a b => a.1 ≤ b.1)
    (hvalues : ∀ member ∈ members, member.2.normal = member.2) :
    (object members).normal = object members := by
  have hsame : (members.map fun member => (member.1, member.2.normal)) = members := by
    refine Eq.trans (List.map_congr_left fun member hmember => ?_) (List.map_id members)
    exact Prod.ext rfl (hvalues member hmember)
  rw [normal_object, hsame, sortMembers, hsorted.insertionSort_eq]

/-- What stands under a name is kept, where the names are distinct. -/
theorem get_normal {members : List (String × Json)} (h : (members.map (·.1)).Nodup)
    (name : String) : (object members).normal.get name =
      ((object members).get name).map normal := by
  have hperm : (members.map fun member => (member.1, member.2.normal)).Perm
      (sortMembers (members.map fun member => (member.1, member.2.normal))) :=
    (List.perm_insertionSort _ _).symm
  have hnames : ((members.map fun member => (member.1, member.2.normal)).map (·.1)).Nodup := by
    rw [List.map_map]
    exact h
  have honce : ∀ a ∈ members.map fun member => (member.1, member.2.normal),
      ∀ b ∈ members.map fun member => (member.1, member.2.normal),
        decide (a.1 = name) = true → decide (b.1 = name) = true → a = b := by
    intro a ha b hb hpa hpb
    exact List.inj_on_of_nodup_map hnames ha hb
      ((of_decide_eq_true hpa).trans (of_decide_eq_true hpb).symm)
  have hfound := find?_perm_iff.mpr honce _ hperm
  rw [normal_object, get, get, hfound, List.find?_map, Option.map_map, Option.map_map]
  rfl

/-- The parts of a value that a map keeps. -/
theorem normal_of_get {json value : Json} {name : String} (h : json.normal = json)
    (hget : json.get name = some value) : value.normal = value := by
  cases json with
  | object members =>
    obtain ⟨member, hfind, rfl⟩ := Option.map_eq_some_iff.mp hget
    have hmem := List.mem_of_find?_eq_some hfind
    rw [normal_object] at h
    rw [← object.inj h, sortMembers, List.mem_insertionSort] at hmem
    obtain ⟨member', -, rfl⟩ := List.mem_map.mp hmem
    exact normal_normal member'.2
  | _ => cases hget

end Labrys.Foundations.Json
