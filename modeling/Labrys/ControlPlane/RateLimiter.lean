import Labrys.Core.Errors
import Labrys.Core.Time
import Labrys.Foundations.Table
import Labrys.Foundations.Windows

/-! # The per-address rate limit in front of authentication

`check` records one request of an address in a table that it prunes when the table has grown; an
instant is counted in nanoseconds, and pruning reads the clock again for every entry. The abstract
limiter keeps one window counter for every address and prunes nothing.

* `RateLimiter.Tracks.check`: one request keeps the table in step with the counters.
* `rate_limit_windows`: the decisions for an address, by the windows of its own requests.
-/

namespace Labrys.ControlPlane
open Labrys.Core Foundations
set_option autoImplicit false

/-- `WINDOW`, in nanoseconds. -/
def rateWindow : ℕ := 60 * 10 ^ 9

def pruneAt : ℕ := 4096

structure RateEntry (Ip : Type) where
  ip : Ip
  started : ℕ
  count : ℕ

/-- A panic while the lock is held poisons it. -/
structure RateLimiter (Ip : Type) where
  limitPerMinute : ℕ
  window : Table (@RateEntry.ip Ip)
  poisoned : Bool

/-- A call of `check`: the address, the instant it reads, and what the clock says before that when
pruning looks at an address's entry. -/
structure CheckCall (Ip : Type) where
  ip : Ip
  now : ℕ
  reading : Ip → ℕ
  reading_le : ∀ ip, reading ip ≤ now

namespace RateLimiter
variable {Ip : Type}

def new (limitPerMinute : ℕ) : RateLimiter Ip := ⟨max limitPerMinute 1, .empty, false⟩

def prune (reading : Ip → ℕ) (table : Table (@RateEntry.ip Ip)) :
    Table (@RateEntry.ip Ip) :=
  if pruneAt < table.rows.length then
    table.retain fun entry => reading entry.ip - entry.started < rateWindow
  else table

/-- The seconds until a window ends, at least one. -/
def resetSeconds (started now : ℕ) : ℕ :=
  if now - started ≤ rateWindow then max ((rateWindow - (now - started)) / 10 ^ 9) 1 else 1

def lockPoisoned : String := "rate-limit lock: PoisonError \x7b .. \x7d"

variable [DecidableEq Ip]

def put (table : Table (@RateEntry.ip Ip)) (entry : RateEntry Ip) :
    Table (@RateEntry.ip Ip) :=
  table.upsert entry (fun row => { row with started := entry.started, count := entry.count })
    fun _ => rfl

/-- The address's entry, reset when its window is over. -/
def entryFor (table : Table (@RateEntry.ip Ip)) (ip : Ip) (now : ℕ) : RateEntry Ip :=
  let entry := (table.get ip).getD ⟨ip, now, 0⟩
  if rateWindow ≤ now - entry.started then { entry with started := now, count := 0 } else entry

def check (call : CheckCall Ip) (l : RateLimiter Ip) : RateLimiter Ip × Outcome ℕ Unit :=
  if l.poisoned then (l, .error (.panic lockPoisoned))
  else
    let table := prune call.reading l.window
    let entry := entryFor table call.ip call.now
    if u32Max < entry.count + 1 then
      ({ l with window := put table entry, poisoned := true }, .error (.panic addOverflowed))
    else
      let entry := { entry with count := entry.count + 1 }
      ({ l with window := put table entry },
        if l.limitPerMinute < entry.count then .error (.err (resetSeconds entry.started call.now))
        else .ok ())

end RateLimiter

def rateLimiter (Ip : Type) [DecidableEq Ip] :
    Machine (RateLimiter Ip) (CheckCall Ip) (Outcome ℕ Unit) where
  step := fun l call => l.check call

/-! ## The table and the counters -/

namespace RateLimiter
variable {Ip : Type}

/-- What the limiter decides about the call of a window with `count` calls before it. -/
def decide (limitPerMinute started count now : ℕ) : Outcome ℕ Unit :=
  if limitPerMinute < count + 1 then .error (.err (resetSeconds started now)) else .ok ()

/-- A window counter for every address, of which none is ever dropped. -/
def counters (Ip : Type) [DecidableEq Ip] (limitPerMinute : ℕ) :
    Machine (Ip → Option (ℕ × ℕ)) (Ip × ℕ) (Outcome ℕ Unit) :=
  (windowCounter rateWindow (decide limitPerMinute)).family Ip

/-- The window of an entry. -/
def last (entry : RateEntry Ip) : ℕ × ℕ := (entry.started, entry.count)

/-- At an instant, the table has what a counter has, or lacks a window that is over. -/
def InStep (now : ℕ) (row counter : Option (ℕ × ℕ)) : Prop :=
  row = counter ∨ (row = none ∧ ∃ started count, counter = some (started, count) ∧
    rateWindow ≤ now - started)

theorem InStep.later {now then' : ℕ} {row counter : Option (ℕ × ℕ)} (h : InStep now row counter)
    (hle : now ≤ then') : InStep then' row counter := by
  obtain rfl | ⟨hrow, started, count, hcounter, hover⟩ := h
  · exact .inl rfl
  · exact .inr ⟨hrow, started, count, hcounter, hover.trans (Nat.sub_le_sub_right hle started)⟩

theorem InStep.openedAt_eq {now : ℕ} {row counter : Option (ℕ × ℕ)} (h : InStep now row counter) :
    openedAt rateWindow row now = openedAt rateWindow counter now := by
  obtain rfl | ⟨rfl, started, count, rfl, hover⟩ := h
  · rfl
  · simp [openedAt, Nat.not_lt.mpr hover]

variable [DecidableEq Ip]

theorem get_put (table : Table (@RateEntry.ip Ip)) (entry : RateEntry Ip) (ip : Ip) :
    (put table entry).get ip = if entry.ip = ip then some entry else table.get ip := by
  unfold put
  split_ifs with hip
  · rw [← hip, Table.get_upsert_self]
    cases hget : table.get entry.ip with
    | none => rfl
    | some row =>
      rw [Option.map_some, Option.getD_some, Table.key_of_get hget]
  · rw [Table.get_upsert_of_ne _ _ _ _ (Ne.symm hip)]

theorem InStep.prune {now : ℕ} {reading : Ip → ℕ} {table : Table (@RateEntry.ip Ip)}
    {ip : Ip} {counter : Option (ℕ × ℕ)} (h : InStep now ((table.get ip).map last) counter)
    (hreading : reading ip ≤ now) :
    InStep now (((RateLimiter.prune reading table).get ip).map last) counter := by
  unfold RateLimiter.prune
  split_ifs
  · rw [Table.get_retain]
    cases hget : table.get ip with
    | none => simpa [hget] using h
    | some entry =>
      rw [hget] at h
      by_cases hkept : reading entry.ip - entry.started < rateWindow
      · rwa [Option.filter_some_pos (by simpa using hkept)]
      · rw [Option.filter_some_neg (by simpa using hkept)]
        obtain heq | ⟨hnone, -⟩ := h
        · have hip : entry.ip = ip := Table.key_of_get hget
          rw [hip, Nat.not_lt] at hkept
          exact .inr ⟨rfl, entry.started, entry.count, heq.symm,
            hkept.trans (Nat.sub_le_sub_right hreading _)⟩
        · cases hnone
  · exact h

theorem entryFor_ip (table : Table (@RateEntry.ip Ip)) (ip : Ip) (now : ℕ) :
    (entryFor table ip now).ip = ip := by
  have hfound : ((table.get ip).getD ⟨ip, now, 0⟩).ip = ip := by
    cases hget : table.get ip with
    | none => rfl
    | some entry => exact Table.key_of_get hget
  unfold entryFor
  dsimp only
  split_ifs <;> exact hfound

theorem last_entryFor (table : Table (@RateEntry.ip Ip)) (ip : Ip) (now : ℕ) :
    last (entryFor table ip now) = openedAt rateWindow ((table.get ip).map last) now := by
  unfold entryFor
  cases table.get ip with
  | none =>
    simp [last, openedAt]
  | some entry =>
    dsimp only [Option.getD_some]
    split_ifs with hover
    · simp [last, openedAt, Nat.not_lt.mpr hover]
    · simp [last, openedAt, Nat.not_le.mp hover]

/-- The table and the counters agree at an instant. -/
structure Tracks (now : ℕ) (l : RateLimiter Ip) (counter : Ip → Option (ℕ × ℕ)) : Prop where
  usable : l.poisoned = false
  inStep : ∀ ip, InStep now ((l.window.get ip).map last) (counter ip)

/-- **One request.** The limiter decides as the address's counter does, and stays in step. -/
theorem Tracks.check {then' : ℕ} {l : RateLimiter Ip} {counter : Ip → Option (ℕ × ℕ)}
    (h : Tracks then' l counter) {call : CheckCall Ip} (hnow : then' ≤ call.now)
    (hcount : (openedAt rateWindow (counter call.ip) call.now).2 < u32Max) :
    Tracks call.now (l.check call).1
      ((counters Ip l.limitPerMinute).next counter (call.ip, call.now)) ∧
    (l.check call).2 = (counters Ip l.limitPerMinute).answer counter (call.ip, call.now) ∧
    (l.check call).1.limitPerMinute = l.limitPerMinute := by
  have hpruned : ∀ ip,
      InStep call.now (((prune call.reading l.window).get ip).map last) (counter ip) :=
    fun ip => ((h.inStep ip).later hnow).prune (call.reading_le ip)
  have hlast := last_entryFor (prune call.reading l.window) call.ip call.now
  rw [(hpruned call.ip).openedAt_eq] at hlast
  have hip := entryFor_ip (prune call.reading l.window) call.ip call.now
  have hroom : ¬ u32Max < (entryFor (prune call.reading l.window) call.ip call.now).count + 1 := by
    rw [← hlast] at hcount
    exact Nat.not_lt.mpr hcount
  have hnext : (counters Ip l.limitPerMinute).next counter (call.ip, call.now) =
      Function.update counter call.ip (some ((openedAt rateWindow (counter call.ip) call.now).1,
        (openedAt rateWindow (counter call.ip) call.now).2 + 1)) := rfl
  have hanswer : (counters Ip l.limitPerMinute).answer counter (call.ip, call.now) =
      decide l.limitPerMinute (openedAt rateWindow (counter call.ip) call.now).1
        (openedAt rateWindow (counter call.ip) call.now).2 call.now := rfl
  rw [hnext, hanswer, ← hlast]
  unfold RateLimiter.check
  rw [h.usable, if_neg Bool.false_ne_true]
  dsimp only
  rw [if_neg hroom]
  refine ⟨⟨rfl, fun ip => ?_⟩, rfl, rfl⟩
  rw [get_put, hip]
  by_cases hsame : call.ip = ip
  · rw [if_pos hsame, ← hsame, Function.update_self]
    exact .inl rfl
  · rw [if_neg hsame, Function.update_of_ne (Ne.symm hsame)]
    exact hpruned ip

/-- **The table does not matter.** Along a timeline the limiter answers as the counters do. -/
theorem Tracks.answers {now : ℕ} {l : RateLimiter Ip} {counter : Ip → Option (ℕ × ℕ)}
    (h : Tracks now l counter) {calls : List (CheckCall Ip)} (hnow : ∀ call ∈ calls, now ≤ call.now)
    (hmono : calls.Pairwise fun a b => a.now ≤ b.now)
    (hcount : (counters Ip l.limitPerMinute).Guarded
      (fun counter input => windowCounter.Below rateWindow u32Max (counter input.1) input.2) counter
      (calls.map fun call => (call.ip, call.now))) :
    (rateLimiter Ip).answers l calls =
      (counters Ip l.limitPerMinute).answers counter
        (calls.map fun call => (call.ip, call.now)) := by
  induction calls generalizing now l counter with
  | nil => rfl
  | cons call calls ih =>
    obtain ⟨hlater, hmono⟩ := List.pairwise_cons.mp hmono
    obtain ⟨hnext, hanswer, hlimit⟩ := h.check (hnow call List.mem_cons_self) hcount.1
    have hrest := ih hnext hlater hmono (hlimit.symm ▸ hcount.2)
    rw [hlimit] at hrest
    exact congrArg₂ List.cons hanswer hrest

theorem resetSeconds_range (started now : ℕ) :
    1 ≤ resetSeconds started now ∧ resetSeconds started now ≤ 60 := by
  unfold resetSeconds rateWindow
  split_ifs <;> omega

/-- The instants at which an address called. -/
def timesOf (ip : Ip) (calls : List (CheckCall Ip)) : List ℕ :=
  Machine.under ip (calls.map fun call => (call.ip, call.now))

/-- What was decided for an address, in order. -/
def decisionsFor (ip : Ip) (calls : List (CheckCall Ip)) (answers : List (Outcome ℕ Unit)) :
    List (Outcome ℕ Unit) :=
  Machine.under ip ((calls.map CheckCall.ip).zip answers)

end RateLimiter

/-- **Rate limit.** The calls of an address are decided by the windows of its own calls, whatever
the others do and whenever the table is pruned: of a window the first `max(limit, 1)` pass, and
the rest are sent away for at least one and at most sixty seconds. -/
theorem rate_limit_windows {Ip : Type} [DecidableEq Ip] (limitPerMinute : ℕ)
    (calls : List (CheckCall Ip)) (hmono : calls.Pairwise fun a b => a.now ≤ b.now)
    (hfew : ∀ ip, ∀ w ∈ windows rateWindow (RateLimiter.timesOf ip calls),
      w.calls.length < 2 ^ 32) (ip : Ip) :
    RateLimiter.decisionsFor ip calls ((rateLimiter Ip).answers (.new limitPerMinute) calls) =
      ((windows rateWindow (RateLimiter.timesOf ip calls)).flatMap fun w =>
        w.calls.zipIdx.map fun (now, i) =>
          if i < max limitPerMinute 1 then .ok ()
          else .error (.err (RateLimiter.resetSeconds w.start now))) ∧
    ∀ started now, 1 ≤ RateLimiter.resetSeconds started now ∧
      RateLimiter.resetSeconds started now ≤ 60 := by
  refine ⟨?_, RateLimiter.resetSeconds_range⟩
  have htracks : RateLimiter.Tracks 0 (.new limitPerMinute) fun _ : Ip => none :=
    ⟨rfl, fun _ => .inl rfl⟩
  have hguarded : (RateLimiter.counters Ip (max limitPerMinute 1)).Guarded
      (fun counter input => windowCounter.Below rateWindow u32Max (counter input.1) input.2)
      (fun _ => none) (calls.map fun call => (call.ip, call.now)) := by
    refine Machine.guarded_family _ _ _ fun other => windowCounter.guarded_of_windows _ _ ?_
    intro w hw
    have hlt : w.calls.length < 2 ^ 32 := hfew other w hw
    exact Nat.le_of_lt_succ hlt
  have hkeys : calls.map CheckCall.ip =
      (calls.map fun call => (call.ip, call.now)).map Prod.fst := by
    rw [List.map_map]
    rfl
  rw [RateLimiter.decisionsFor, htracks.answers (fun _ _ => Nat.zero_le _) hmono hguarded, hkeys]
  refine (Machine.answers_family _ (fun _ : Ip => none) _ ip).trans ?_
  refine (windowCounter.answers_eq _ _).trans ?_
  refine List.flatMap_congr fun w _ => List.map_congr_left fun (now, i) _ => ?_
  dsimp only [RateLimiter.decide, RateLimiter.new]
  by_cases hi : i < max limitPerMinute 1
  · rw [if_pos hi, if_neg (Nat.not_lt.mpr hi)]
  · rw [if_neg hi, if_pos (Nat.lt_succ_of_le (Nat.not_lt.mp hi))]

/-- Two calls of one address at a limit of one, a second apart. -/
theorem rate_limit_windows_twice :
    let calls : List (CheckCall ℕ) :=
      [⟨7, 0, fun _ => 0, fun _ => Nat.le_refl 0⟩,
        ⟨7, 10 ^ 9, fun _ => 0, fun _ => Nat.zero_le _⟩]
    RateLimiter.decisionsFor 7 calls ((rateLimiter ℕ).answers (.new 1) calls) =
      ((windows rateWindow (RateLimiter.timesOf 7 calls)).flatMap fun w =>
        w.calls.zipIdx.map fun (now, i) =>
          if i < max 1 1 then .ok ()
          else .error (.err (RateLimiter.resetSeconds w.start now))) := by
  intro calls
  refine (rate_limit_windows 1 calls (by simp [calls]) (fun ip w hw => ?_) 7).1
  have hlength : (RateLimiter.timesOf ip calls).length ≤ calls.length :=
    (List.length_map _).trans_le ((List.length_filter_le _ _).trans (List.length_map _).le)
  exact ((length_calls_le hw).trans hlength).trans_lt (by decide)

end Labrys.ControlPlane
