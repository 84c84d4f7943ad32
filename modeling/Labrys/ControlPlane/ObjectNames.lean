import Labrys.ControlPlane.PostgresConvergence

/-! # The names of provider objects

Roles, databases and buckets are named by the first sixteen characters of the resource's id, of which
the tag takes four or, without its underscore, three. The other hexadecimal digits of the id do not
reach the name.

* `stemOf_eq`, `bucketNameFor_eq_ok`: the digits that do.
* `object_names`: which resources share their names. -/

namespace Labrys.ControlPlane
open Foundations Labrys.Core
set_option autoImplicit false

/-- The first digits of a number are the digits of what is left of it without the others. -/
theorem hexDigits_take {width k : ℕ} (hk : k ≤ width) (value : ℕ) :
    (hexDigits width value).toList.take k = (hexDigits k (value / 16 ^ (width - k))).toList := by
  rw [hexDigits, hexDigits, String.toList_ofList, String.toList_ofList, ← List.map_take,
    List.take_range, Nat.min_eq_left hk]
  refine List.map_congr_left fun i hi => ?_
  have hlt := List.mem_range.mp hi
  have hplace : width - 1 - i = (width - k) + (k - 1 - i) := by omega
  rw [hplace, Nat.pow_add, Nat.div_div_eq_div_mul]

theorem hexDigits_filter {keep : Char → Bool} (hkeep : ∀ n < 16, keep (Nat.digitChar n) = true)
    (width value : ℕ) :
    (hexDigits width value).toList.filter keep = (hexDigits width value).toList := by
  refine List.filter_eq_self.mpr fun c hc => ?_
  rw [hexDigits, String.toList_ofList] at hc
  obtain ⟨i, -, rfl⟩ := List.mem_map.mp hc
  exact hkeep _ (Nat.mod_lt _ (by decide))

/-- What is left of a resource's id without so many of its last bits. -/
def leading (bits : ℕ) (resource : ResourceId) : ℕ := resource.uuid.toNat / 2 ^ (128 - bits)

theorem leading_lt {bits : ℕ} (h : bits ≤ 128) (resource : ResourceId) :
    leading bits resource < 2 ^ bits := by
  rw [leading, Nat.div_lt_iff_lt_mul (by positivity), ← Nat.pow_add, Nat.add_sub_cancel' h]
  exact resource.uuid.isLt

theorem simple_take {bits k : ℕ} (hbits : bits = 4 * k) (hk : k ≤ 32) (resource : ResourceId) :
    resource.uuid.simple.toList.take k = (hexDigits k (leading bits resource)).toList := by
  have hpower : 16 ^ (32 - k) = 2 ^ (128 - bits) := by
    rw [show (16 : ℕ) = 2 ^ 4 by rfl, ← Nat.pow_mul]
    congr 1
    omega
  rw [Uuid.simple, hexDigits_take hk, leading, hpower]

/-! ## The stems -/

theorem stemOf_eq (operation : ProviderOperation) : PostgresProvisioner.stemOf operation =
    "res_".toList ++ (hexDigits 12 (leading 48 operation.resourceId)).toList := by
  have hdigits : ∀ n < 16, decide (Nat.digitChar n ≠ '-') = true := by decide
  have htag : ("res".toList ++ ['_']).filter (fun c => decide (c ≠ '-')) = "res_".toList := by decide
  rw [PostgresProvisioner.stemOf, TaggedId.toString_toList, ← List.singleton_append,
    ← List.append_assoc, List.filter_append, htag, Uuid.simple, hexDigits_filter hdigits,
    ← Uuid.simple, ← simple_take rfl (by decide)]
  rfl

theorem bucketNameFor_eq_ok {tag bucket : String} {resource : ResourceId}
    (h : FsBucketBackend.bucketNameFor tag resource = .ok bucket) :
    bucket = tag ++ "-" ++ String.ofList
      ("res".toList ++ (hexDigits 13 (leading 52 resource)).toList) := by
  have hdigits : ∀ n < 16, decide (Nat.digitChar n ≠ '-' ∧ Nat.digitChar n ≠ '_') = true := by decide
  have htag : ("res".toList ++ ['_']).filter (fun c => decide (c ≠ '-' ∧ c ≠ '_')) =
      "res".toList := by decide
  have hstem : ((toString resource).toList.filter fun c => c ≠ '-' ∧ c ≠ '_').take 16 =
      "res".toList ++ (hexDigits 13 (leading 52 resource)).toList := by
    rw [TaggedId.toString_toList, ← List.singleton_append, ← List.append_assoc, List.filter_append,
      htag, Uuid.simple, hexDigits_filter hdigits, ← Uuid.simple, ← simple_take rfl (by decide)]
    rfl
  rw [FsBucketBackend.bucketNameFor, hstem] at h
  split_ifs at h
  exact (Except.ok.inj h).symm

/-- A text, then the digits of a number. -/
theorem append_hexDigits_inj (front : List Char) {k m n : ℕ} (hm : m < 16 ^ k) (hn : n < 16 ^ k) :
    front ++ (hexDigits k m).toList = front ++ (hexDigits k n).toList ↔ m = n := by
  rw [List.append_cancel_left_eq, String.toList_inj]
  exact ⟨hexDigits_injective hm hn, congrArg _⟩

/-- **The names of provider objects**, for every two resources: their roles and their databases differ
exactly if the first 48 bits of their ids do, and their buckets exactly if the first 52 do. -/
theorem object_names (operation other : ProviderOperation) :
    (∃ role database role' database',
      PostgresProvisioner.names operation = .ok (role, database) ∧
      PostgresProvisioner.names other = .ok (role', database') ∧
      (role ≠ role' ↔ leading 48 operation.resourceId ≠ leading 48 other.resourceId) ∧
      (database ≠ database' ↔ leading 48 operation.resourceId ≠ leading 48 other.resourceId)) ∧
    ∀ tag bucket bucket',
      FsBucketBackend.bucketNameFor tag operation.resourceId = .ok bucket →
      FsBucketBackend.bucketNameFor tag other.resourceId = .ok bucket' →
        (bucket ≠ bucket' ↔ leading 52 operation.resourceId ≠ leading 52 other.resourceId) := by
  have hstems : PostgresProvisioner.stemOf operation = PostgresProvisioner.stemOf other ↔
      leading 48 operation.resourceId = leading 48 other.resourceId := by
    rw [stemOf_eq, stemOf_eq]
    exact append_hexDigits_inj _ (leading_lt (by decide) _) (leading_lt (by decide) _)
  have htexts : ∀ (front : String) (stem stem' : List Char),
      front ++ String.ofList stem = front ++ String.ofList stem' ↔ stem = stem' := by
    intro front stem stem'
    rw [← String.toList_inj, String.toList_append, String.toList_append, String.toList_ofList,
      String.toList_ofList, List.append_cancel_left_eq]
  refine ⟨⟨_, _, _, _, PostgresProvisioner.names_eq operation, PostgresProvisioner.names_eq other,
    ?_, ?_⟩, fun tag bucket bucket' hbucket hbucket' => ?_⟩
  · rw [PostgresProvisioner.roleOf, PostgresProvisioner.roleOf, Ne, htexts, hstems]
  · rw [PostgresProvisioner.databaseOf, PostgresProvisioner.databaseOf, Ne, htexts, hstems]
  · rw [bucketNameFor_eq_ok hbucket, bucketNameFor_eq_ok hbucket', Ne, htexts,
      append_hexDigits_inj _ (leading_lt (by decide) _) (leading_lt (by decide) _)]

/-- Two random ids that differ in their last digit only. -/
theorem object_names_shared : ¬ ∀ operation other : ProviderOperation,
    operation.resourceId ≠ other.resourceId →
      PostgresProvisioner.names operation ≠ PostgresProvisioner.names other ∧
        ∀ tag bucket, FsBucketBackend.bucketNameFor tag operation.resourceId = .ok bucket →
          FsBucketBackend.bucketNameFor tag other.resourceId ≠ .ok bucket := by
  intro h
  let operationOn := fun uuid : Uuid => (⟨⟨1⟩, none, ⟨uuid⟩, "database.postgres", "postgres.managed",
    .postgres, .provision, "k-1", "trace-1", [], 1⟩ : ProviderOperation)
  let first := operationOn 0x0123456789ab4000800000000000000a
  let second := operationOn 0x0123456789ab4000800000000000000b
  have hleading : leading 48 first.resourceId = leading 48 second.resourceId := by decide +kernel
  have hstem : PostgresProvisioner.stemOf first = PostgresProvisioner.stemOf second := by
    rw [stemOf_eq, stemOf_eq, hleading]
  refine (h first second (by decide +kernel)).1 ?_
  rw [PostgresProvisioner.names_eq, PostgresProvisioner.names_eq, PostgresProvisioner.roleOf,
    PostgresProvisioner.roleOf, PostgresProvisioner.databaseOf, PostgresProvisioner.databaseOf, hstem]

end Labrys.ControlPlane
