import Labrys.Foundations.Runs
import Labrys.Foundations.Selection

/-! # Append-only tables

A table that only grows: a call is refused, or adds the row it is stored as. A query selects rows,
sorts them by their keys and reads each of them back. When reading gives back what was stored, a query
returns what the same query of the accepted calls does, in the order of their keys and not in that of
their arrival. -/

namespace Labrys.Foundations
set_option autoImplicit false

section Table
variable {ι ρ ε : Type} (insert : ι → Except ε ρ)

def appending : Machine (List ρ) ι (Except ε ρ) where
  step := fun rows call =>
    match insert call with
    | .ok row => (rows ++ [row], .ok row)
    | .error e => (rows, .error e)

/-- The call is not refused. -/
def isAccepted (call : ι) : Bool := (insert call).toOption.isSome

variable {insert}

theorem run_appending {row : ι → ρ} (hrow : ∀ call r, insert call = .ok r → r = row call)
    (rows : List ρ) (calls : List ι) :
    (appending insert).run rows calls = rows ++ (calls.filter (isAccepted insert)).map row := by
  induction calls generalizing rows with
  | nil => simp
  | cons call calls ih =>
    rw [Machine.run_cons, ih]
    cases hinsert : insert call with
    | ok r =>
      obtain rfl := hrow call r hinsert
      have haccepted : isAccepted insert call = true := by
        simp [isAccepted, hinsert, Except.toOption]
      have hnext : (appending insert).next rows call = rows ++ [row call] := by
        simp [Machine.next, appending, hinsert]
      rw [hnext, List.filter_cons_of_pos haccepted, List.map_cons, List.append_assoc]
      rfl
    | error e =>
      have hrefused : isAccepted insert call = false := by
        simp [isAccepted, hinsert, Except.toOption]
      have hnext : (appending insert).next rows call = rows := by
        simp [Machine.next, appending, hinsert]
      rw [hnext, List.filter_cons_of_neg (by simp [hrefused])]

end Table

section Query
variable {ι ρ ε δ β κ : Type} [LinearOrder κ]

/-- Reading one by one what is always read. -/
theorem mapM_map_eq_ok {f : ρ → Except δ β} {g : ι → β} {row : ι → ρ} {calls : List ι}
    (hread : ∀ call ∈ calls, f (row call) = .ok (g call)) :
    (calls.map row).mapM f = .ok (calls.map g) := by
  induction calls with
  | nil => rfl
  | cons call calls ih =>
    rw [List.map_cons, List.mapM_cons, hread call List.mem_cons_self,
      ih fun c hc => hread c (List.mem_cons_of_mem call hc)]
    rfl

/-- **Queries.** -/
theorem query_appending {insert : ι → Except ε ρ} {row : ι → ρ} {f : ρ → Except δ β} {g : ι → β}
    {key : ρ → κ} {key' : ι → κ} (hrow : ∀ call r, insert call = .ok r → r = row call)
    (hkey : ∀ call, key (row call) = key' call) (hread : ∀ call, f (row call) = .ok (g call))
    {calls : List ι} (hnodup : (calls.map key').Nodup) {p : ρ → Bool} {q : ι → Bool}
    (hsame : ∀ call, p (row call) = q call) :
    (sortByKey key (((appending insert).run [] calls).filter p)).mapM f =
      .ok (((sortByKey key' (calls.filter (isAccepted insert))).filter q).map g) := by
  have haccepted : ((calls.filter (isAccepted insert)).map key').Nodup :=
    hnodup.sublist (List.filter_sublist.map key')
  have hfilter : ((calls.filter (isAccepted insert)).map row).filter p =
      ((calls.filter (isAccepted insert)).filter q).map row := by
    rw [List.filter_map]
    exact congrArg (List.map row) (List.filter_congr fun call _ => hsame call)
  rw [run_appending hrow, List.nil_append, hfilter, sortByKey_map hkey,
    mapM_map_eq_ok fun call _ => hread call, sortByKey_filter haccepted]

/-- A view that a query cannot see through may be taken before it. -/
theorem map_filter_view {α : Type} {view : α → α} {q : α → Bool} (hq : ∀ a, q (view a) = q a)
    (as : List α) : (as.filter q).map view = (as.map view).filter q := by
  rw [List.filter_map]
  exact congrArg (List.map view) (List.filter_congr fun a _ => (hq a).symm)

/-- What a log in memory remembers, call by call. -/
theorem map_foldl_append {σ α γ : Type} {events : σ → List α} {step : σ → ι → σ} {view : α → γ}
    {event : ι → γ}
    (hstep : ∀ s call, (events (step s call)).map view = (events s).map view ++ [event call])
    (s : σ) (calls : List ι) :
    (events (calls.foldl step s)).map view = (events s).map view ++ calls.map event := by
  induction calls generalizing s with
  | nil => simp
  | cons call calls ih => rw [List.foldl_cons, ih, hstep, List.append_assoc]; rfl

end Query

end Labrys.Foundations
