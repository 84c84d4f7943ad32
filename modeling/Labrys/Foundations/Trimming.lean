import Labrys.Foundations.Text

/-! # Trimmed texts

What `trim` does to a text in parts: white space goes at the two ends and nowhere else. -/

namespace Labrys.Foundations
set_option autoImplicit false

/-- `trim_end`. -/
def trimEnd (text : List Char) : List Char := (text.reverse.dropWhile isWhiteSpace).reverse

/-- No white space at the front. -/
def StartsDark (text : List Char) : Prop := ∀ c ∈ text.head?, isWhiteSpace c = false

theorem trim_eq (text : List Char) : trim text = trimEnd (text.dropWhile isWhiteSpace) := rfl

theorem trimEnd_append_cons (a b : List Char) {c : Char} (hc : isWhiteSpace c = false) :
    trimEnd (a ++ c :: b) = a ++ c :: trimEnd b := by
  unfold trimEnd
  have hrev : (a ++ c :: b).reverse = b.reverse ++ c :: a.reverse := by simp
  rw [hrev, List.dropWhile_append]
  split_ifs with hblank
  · have hnil : b.reverse.dropWhile isWhiteSpace = [] := List.isEmpty_iff.mp hblank
    rw [hnil, List.dropWhile_cons_of_neg (by rw [hc]; exact Bool.false_ne_true)]
    simp
  · simp

theorem dropWhile_of_startsDark {text : List Char} (h : StartsDark text) :
    text.dropWhile isWhiteSpace = text := by
  cases text with
  | nil => rfl
  | cons c rest =>
    have hc : isWhiteSpace c = false := h c rfl
    exact List.dropWhile_cons_of_neg (by rw [hc]; exact Bool.false_ne_true)

theorem startsDark_append_cons {a b : List Char} {c : Char} (ha : StartsDark a)
    (hc : isWhiteSpace c = false) : StartsDark (a ++ c :: b) := by
  cases a with
  | nil =>
    intro x hx
    obtain rfl := Option.some.inj hx
    exact hc
  | cons d a => exact fun x hx => ha x hx

/-- Around a symbol that is not white space, each end is trimmed on its own. -/
theorem trim_around (a b : List Char) {c : Char} (hc : isWhiteSpace c = false) :
    trim (a ++ c :: b) = a.dropWhile isWhiteSpace ++ c :: trimEnd b := by
  have hfront : (a ++ c :: b).dropWhile isWhiteSpace = a.dropWhile isWhiteSpace ++ c :: b := by
    rw [List.dropWhile_append]
    split_ifs with hblank
    · rw [List.isEmpty_iff.mp hblank, List.nil_append,
        List.dropWhile_cons_of_neg (by rw [hc]; exact Bool.false_ne_true)]
    · rfl
  rw [trim_eq, hfront, trimEnd_append_cons _ b hc]

/-- Nothing before a symbol that is not white space is lost. -/
theorem trim_append_cons {a : List Char} (b : List Char) {c : Char} (ha : StartsDark a)
    (hc : isWhiteSpace c = false) : trim (a ++ c :: b) = a ++ c :: trimEnd b := by
  rw [trim_around a b hc, dropWhile_of_startsDark ha]

/-- A symbol that is not white space outlives the trimming. -/
theorem trim_ne_nil_of_mem {text : List Char} {c : Char} (h : c ∈ text)
    (hc : isWhiteSpace c = false) : trim text ≠ [] := by
  obtain ⟨a, b, rfl⟩ := List.append_of_mem h
  rw [trim_around a b hc]
  simp

theorem trim_of_spaceless {text : List Char} (h : ∀ c ∈ text, isWhiteSpace c = false) :
    trim text = text := by
  have hstart : StartsDark text := fun c hc => h c (List.mem_of_mem_head? hc)
  rw [trim_eq, dropWhile_of_startsDark hstart]
  unfold trimEnd
  cases hlast : text.reverse with
  | nil => simpa using hlast.symm
  | cons c rest =>
    have hc : isWhiteSpace c = false := h c (List.mem_reverse.mp (hlast ▸ List.mem_cons_self))
    rw [List.dropWhile_cons_of_neg (by rw [hc]; exact Bool.false_ne_true), ← hlast,
      List.reverse_reverse]

theorem startsDark_dropWhile (text : List Char) : StartsDark (text.dropWhile isWhiteSpace) := by
  intro c hc
  have hnot := List.head?_dropWhile_not isWhiteSpace text
  rw [Option.mem_def.mp hc] at hnot
  exact hnot

theorem startsDark_trim (text : List Char) : StartsDark (trim text) := by
  intro c hc
  have hmem : c ∈ (text.dropWhile isWhiteSpace).head? := by
    rw [trim_eq] at hc
    obtain ⟨ending, hending⟩ : trimEnd (text.dropWhile isWhiteSpace) <+:
        text.dropWhile isWhiteSpace := by
      unfold trimEnd
      exact List.reverse_suffix.mp (by rw [List.reverse_reverse]; exact List.dropWhile_suffix _)
    rw [← hending, List.head?_append, hc]
    rfl
  exact startsDark_dropWhile text c hmem

theorem trimEnd_trim (text : List Char) : trimEnd (trim text) = trim text := by
  rw [trim_eq]
  unfold trimEnd
  rw [List.reverse_reverse, dropWhile_of_startsDark (startsDark_dropWhile _)]

theorem mem_trimEnd_of_dark {text : List Char} {c : Char} (h : c ∈ text)
    (hc : isWhiteSpace c = false) : c ∈ trimEnd text := by
  obtain ⟨a, b, rfl⟩ := List.append_of_mem h
  rw [trimEnd_append_cons a b hc]
  exact List.mem_append_right a List.mem_cons_self

end Labrys.Foundations
