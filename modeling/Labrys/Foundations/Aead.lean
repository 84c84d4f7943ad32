import Mathlib.Data.List.Infix

/-! # Authenticated encryption with associated data

A cipher under a key, a nonce and associated data. It is ideal when it opens what it sealed and
nothing else: what decrypts is an encryption under exactly that key, nonce and associated data, and
an encryption determines the three. -/

namespace Labrys.Foundations
set_option autoImplicit false

structure Aead (κ ν α μ γ : Type) where
  encrypt : κ → ν → α → μ → γ
  decrypt : κ → ν → α → γ → Option μ

namespace Aead
variable {κ ν α μ γ : Type}

structure Ideal (A : Aead κ ν α μ γ) : Prop where
  opens : ∀ key nonce aad message,
    A.decrypt key nonce aad (A.encrypt key nonce aad message) = some message
  rejects : ∀ key nonce aad ciphertext message,
    A.decrypt key nonce aad ciphertext = some message →
      ciphertext = A.encrypt key nonce aad message
  binds : ∀ key key' nonce nonce' aad aad' message message',
    A.encrypt key nonce aad message = A.encrypt key' nonce' aad' message' →
      key = key' ∧ nonce = nonce' ∧ aad = aad'

/-- Other associated data does not authenticate. -/
theorem Ideal.decrypt_of_ne {A : Aead κ ν α μ γ} (h : A.Ideal) {aad aad' : α} (hne : aad ≠ aad')
    (key key' : κ) (nonce nonce' : ν) (message : μ) :
    A.decrypt key' nonce' aad' (A.encrypt key nonce aad message) = none := by
  cases hopen : A.decrypt key' nonce' aad' (A.encrypt key nonce aad message) with
  | none => rfl
  | some message' =>
    have hsame := h.rejects key' nonce' aad' _ message' hopen
    exact absurd (h.binds key key' nonce nonce' aad aad' message message' hsame).2.2 hne

/-! ## An ideal cipher on bytes

It hides nothing: the ciphertext lists the key, the nonce, the length of the associated data, the
data and the message. -/

section Bytes
variable {k n : ℕ}

abbrev ByteAead (k n : ℕ) := Aead (Vector UInt8 k) (Vector UInt8 n) (List UInt8) (List UInt8)
  (List UInt8)

def header (key : Vector UInt8 k) (nonce : Vector UInt8 n) (aad : List UInt8) : List UInt8 :=
  key.toList ++ (nonce.toList ++ (List.replicate aad.length 1 ++ 0 :: aad))

def plain (k n : ℕ) : ByteAead k n where
  encrypt := fun key nonce aad message => header key nonce aad ++ message
  decrypt := fun key nonce aad ciphertext =>
    if header key nonce aad <+: ciphertext then
      some (ciphertext.drop (header key nonce aad).length)
    else none

/-- A number in unary notation is read off the front of a text. -/
theorem replicate_cons_inj {m n : ℕ} {us vs : List UInt8}
    (h : List.replicate m 1 ++ 0 :: us = List.replicate n 1 ++ 0 :: vs) : m = n ∧ us = vs := by
  induction m generalizing n with
  | zero =>
    cases n with
    | zero => simpa using h
    | succ n => simp [List.replicate_succ] at h
  | succ m ih =>
    cases n with
    | zero => simp [List.replicate_succ] at h
    | succ n =>
      simp only [List.replicate_succ, List.cons_append, List.cons.injEq, true_and] at h
      obtain ⟨rfl, rfl⟩ := ih h
      exact ⟨rfl, rfl⟩

theorem ideal_plain (k n : ℕ) : (plain k n).Ideal where
  opens := fun key nonce aad message => by simp [plain]
  rejects := fun key nonce aad ciphertext message h => by
    simp only [plain] at h ⊢
    split_ifs at h with hprefix
    obtain rfl := Option.some_inj.mp h
    exact List.prefix_append_drop hprefix
  binds := fun key key' nonce nonce' aad aad' message message' h => by
    simp only [plain, header, List.append_assoc, List.cons_append] at h
    obtain ⟨hkey, h⟩ := List.append_inj h (by simp)
    obtain ⟨hnonce, h⟩ := List.append_inj h (by simp)
    obtain ⟨hlength, h⟩ := replicate_cons_inj h
    exact ⟨Vector.toList_inj.mp hkey, Vector.toList_inj.mp hnonce, (List.append_inj h hlength).1⟩

end Bytes

end Aead
end Labrys.Foundations
