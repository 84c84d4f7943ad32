import Labrys.Core.Errors
import Labrys.Foundations.Text

/-! # Redaction of known secret values -/

namespace Labrys.Core
open Foundations
set_option autoImplicit false

def redactionMarker : String := "[redacted]"

def replaceText (text pat rep : String) : String :=
  String.ofList (replaceAll pat.toList rep.toList text.toList)

def containsText (text pat : String) : Bool := contains text.toList pat.toList

/-- `redact_reason`: replaces every nonempty secret, in list order. -/
def redactReason (reason : String) (secrets : List String) : String :=
  (secrets.filter fun s => s ≠ "").foldl (fun out secret => replaceText out secret redactionMarker)
    reason

/-- `ensure_no_secret`: the first nonempty secret still present is an error naming the field. -/
def ensureNoSecret (field text : String) (secrets : List String) : Except ControlPlaneError Unit :=
  if (secrets.filter fun s => s ≠ "").any fun secret => containsText text secret then
    .error (.secretLeak field)
  else .ok ()

/-- `redact_guard`: redacts, then refuses what still carries a secret. -/
def redactGuard (field text : String) (secrets : List String) : Except ControlPlaneError String := do
  let redacted := redactReason text secrets
  ensureNoSecret field redacted secrets
  return redacted

@[simp] theorem redactReason_nil (reason : String) : redactReason reason [] = reason := rfl

@[simp] theorem redactGuard_nil (field text : String) : redactGuard field text [] = .ok text := rfl

/-! ## What redaction clears -/

/-- A secret that redaction can clear: it is not empty and does not overlap the marker. -/
def redactable (secret : String) : Bool :=
  secret ≠ "" && !overlaps secret.toList redactionMarker.toList

theorem containsText_eq_false_iff {text pat : String} :
    containsText text pat = false ↔ ¬ pat.toList <:+: text.toList := by
  rw [containsText, contains, decide_eq_false_iff_not]

theorem redactable_iff {secret : String} :
    redactable secret = true ↔
      secret.toList ≠ [] ∧ overlaps secret.toList redactionMarker.toList = false := by
  simp [redactable, String.toList_eq_nil_iff]

/-- Replacing one text by the marker does not bring a redactable secret in. -/
theorem containsText_replaceText {text pat secret : String} (hpat : pat ≠ "")
    (hsecret : redactable secret = true) (h : containsText text secret = false) :
    containsText (replaceText text pat redactionMarker) secret = false := by
  rw [containsText_eq_false_iff] at h ⊢
  rw [replaceText, String.toList_ofList]
  intro hinfix
  have hne : pat.toList ≠ [] := by rwa [Ne, String.toList_eq_nil_iff]
  exact h (infix_of_infix_replaceAll hne (redactable_iff.mp hsecret).2 text.toList hinfix)

theorem containsText_replaceText_self (text : String) {secret : String}
    (hsecret : redactable secret = true) :
    containsText (replaceText text secret redactionMarker) secret = false := by
  rw [containsText_eq_false_iff, replaceText, String.toList_ofList]
  exact not_infix_replaceAll (redactable_iff.mp hsecret).1 (redactable_iff.mp hsecret).2 text.toList

/-- What is clear of a redactable secret stays clear of it while others are replaced. -/
theorem containsText_foldl_replaceText {secret : String} (hsecret : redactable secret = true)
    (secrets : List String) (hsecrets : ∀ s ∈ secrets, s ≠ "") (text : String)
    (h : containsText text secret = false) :
    containsText (secrets.foldl (fun out s => replaceText out s redactionMarker) text) secret =
      false := by
  induction secrets generalizing text with
  | nil => exact h
  | cons s rest ih =>
    have hclear := containsText_replaceText (hsecrets s List.mem_cons_self) hsecret h
    exact ih (fun t ht => hsecrets t (List.mem_cons_of_mem s ht)) _ hclear

/-- **Redaction clears every redactable secret**, whatever the others are. -/
theorem containsText_redactReason (reason : String) {secrets : List String} {secret : String}
    (hmem : secret ∈ secrets) (hsecret : redactable secret = true) :
    containsText (redactReason reason secrets) secret = false := by
  have hne : secret ≠ "" := by
    rw [Ne, ← String.toList_eq_nil_iff]
    exact (redactable_iff.mp hsecret).1
  have hkept : secret ∈ secrets.filter fun s => s ≠ "" :=
    List.mem_filter.mpr ⟨hmem, by simpa using hne⟩
  have hnonempty : ∀ s ∈ secrets.filter fun s => s ≠ "", s ≠ "" := fun s hs => by
    simpa using (List.mem_filter.mp hs).2
  unfold redactReason
  generalize (secrets.filter fun s => s ≠ "") = kept at hkept hnonempty
  induction kept generalizing reason with
  | nil => cases hkept
  | cons s rest ih =>
    have hrest : ∀ t ∈ rest, t ≠ "" := fun t ht => hnonempty t (List.mem_cons_of_mem s ht)
    obtain rfl | hlater := List.mem_cons.mp hkept
    · exact containsText_foldl_replaceText hsecret rest hrest _
        (containsText_replaceText_self reason hsecret)
    · exact ih _ hlater hrest

example : redactReason "token hunter2 refused" ["hunter2", ""] = "token [redacted] refused" := by decide

/-! ## Any list of secrets -/

/-- No nonempty secret occurs in the text. -/
def CarriesNone (secrets : List String) (text : String) : Prop :=
  ∀ secret ∈ secrets, secret ≠ "" → containsText text secret = false

instance (secrets : List String) (text : String) : Decidable (CarriesNone secrets text) :=
  inferInstanceAs (Decidable (∀ secret ∈ secrets, secret ≠ "" → containsText text secret = false))

/-- No nonempty secret overlaps the marker. -/
def ApartFromMarker (secrets : List String) : Prop :=
  ∀ secret ∈ secrets, secret ≠ "" → overlaps secret.toList redactionMarker.toList = false

instance (secrets : List String) : Decidable (ApartFromMarker secrets) :=
  inferInstanceAs (Decidable (∀ secret ∈ secrets, secret ≠ "" →
    overlaps secret.toList redactionMarker.toList = false))

theorem carriesNone_redactReason {secrets : List String} (hsecrets : ApartFromMarker secrets)
    (reason : String) : CarriesNone secrets (redactReason reason secrets) := by
  intro secret hmem hne
  refine containsText_redactReason reason hmem (redactable_iff.mpr ⟨?_, hsecrets secret hmem hne⟩)
  rwa [Ne, String.toList_eq_nil_iff]

/-- A pattern that does not occur is replaced nowhere. -/
theorem replaceText_of_not_contains {text pat : String} (hpat : pat ≠ "") (rep : String)
    (h : containsText text pat = false) : replaceText text pat rep = text := by
  rw [containsText_eq_false_iff] at h
  have hne : pat.toList ≠ [] := by rwa [Ne, String.toList_eq_nil_iff]
  obtain ⟨-, heq⟩ | ⟨before, rest, hsplit, -, -⟩ := replaceAll_cases hne rep.toList text.toList
  · rw [replaceText, heq, String.ofList_toList]
  · exact absurd ⟨before, rest, by rw [hsplit, List.append_assoc]⟩ h

/-- Text that carries no secret is left as it is. -/
theorem redactReason_of_carriesNone {secrets : List String} {reason : String}
    (h : CarriesNone secrets reason) : redactReason reason secrets = reason := by
  unfold redactReason
  induction secrets with
  | nil => rfl
  | cons secret rest ih =>
    have hrest : CarriesNone rest reason := fun s hs => h s (List.mem_cons_of_mem secret hs)
    by_cases hempty : secret = ""
    · rw [List.filter_cons_of_neg (by simp [hempty])]
      exact ih hrest
    · rw [List.filter_cons_of_pos (by simp [hempty]), List.foldl_cons,
        replaceText_of_not_contains hempty _ (h secret List.mem_cons_self hempty)]
      exact ih hrest

/-- The guard lets through exactly the redacted texts that carry no secret. -/
theorem redactGuard_eq (field text : String) (secrets : List String) :
    redactGuard field text secrets =
      if CarriesNone secrets (redactReason text secrets) then .ok (redactReason text secrets)
      else .error (.secretLeak field) := by
  have hany : ((secrets.filter fun s => s ≠ "").any fun secret =>
      containsText (redactReason text secrets) secret) = false ↔
      CarriesNone secrets (redactReason text secrets) := by
    simp [List.any_eq_false, CarriesNone]
  change (ensureNoSecret field (redactReason text secrets) secrets >>= fun _ =>
    pure (redactReason text secrets)) = _
  unfold ensureNoSecret
  split_ifs with hleak hclear hclear
  · rw [hany.mpr hclear] at hleak
    cases hleak
  · rfl
  · rfl
  · exact absurd (hany.mp (by simpa using hleak)) hclear

/-- **Redaction is complete** for every secret that does not overlap the marker, whatever the others
are. For every list without an overlapping one, and for every text that carries none of the list, the
redacted text carries none, and the guard returns it. For every list the guard returns only texts
that carry none, and refuses the others by an error that names the field. -/
theorem redaction_complete (field text : String) (secrets : List String) :
    (∀ secret ∈ secrets, redactable secret = true →
      containsText (redactReason text secrets) secret = false) ∧
    (ApartFromMarker secrets ∨ CarriesNone secrets text →
      CarriesNone secrets (redactReason text secrets) ∧
        redactGuard field text secrets = .ok (redactReason text secrets)) ∧
    (∀ out, redactGuard field text secrets = .ok out →
      out = redactReason text secrets ∧ CarriesNone secrets out) ∧
    (¬ CarriesNone secrets (redactReason text secrets) →
      redactGuard field text secrets = .error (.secretLeak field)) := by
  have hguard := redactGuard_eq field text secrets
  refine ⟨fun secret hmem => containsText_redactReason text hmem, fun h => ?_, fun out hout => ?_,
    fun h => ?_⟩
  · have hclear : CarriesNone secrets (redactReason text secrets) := by
      obtain hapart | hnone := h
      · exact carriesNone_redactReason hapart text
      · rwa [redactReason_of_carriesNone hnone]
    refine ⟨hclear, ?_⟩
    rw [hguard, if_pos hclear]
  · rw [hguard] at hout
    split_ifs at hout with hclear
    obtain rfl := Except.ok.inj hout
    exact ⟨rfl, hclear⟩
  · rw [hguard, if_neg h]

/-- One secret is redacted completely next to one that is in the marker, and both are when no secret
overlaps it. -/
theorem redaction_complete_token :
    containsText (redactReason "token hunter2 refused" ["hunter2", "red"]) "hunter2" = false ∧
      ApartFromMarker ["hunter2", ""] ∧
      redactGuard "event.before" "token hunter2 refused" ["hunter2", ""] =
        .ok "token [redacted] refused" := by
  have hapart : ApartFromMarker ["hunter2", ""] := by decide
  have hcleared := (redaction_complete "event.before" "token hunter2 refused"
    ["hunter2", "red"]).1 "hunter2" (by decide) (by decide)
  have hcomplete := (redaction_complete "event.before" "token hunter2 refused"
    ["hunter2", ""]).2.1 (.inl hapart)
  exact ⟨hcleared, hapart, hcomplete.2.trans (by decide)⟩

/-- The marker that replaces the first secret holds the second one, and replacing that leaves it in
place again. -/
theorem redaction_incomplete :
    ¬ CarriesNone ["hunter2", "red"]
        (redactReason "token hunter2 refused" ["hunter2", "red"]) ∧
      redactGuard "event.before" "token hunter2 refused" ["hunter2", "red"] =
        .error (.secretLeak "event.before") := by
  refine ⟨by decide, ?_⟩
  rw [redactGuard_eq, if_neg (by decide)]

end Labrys.Core
