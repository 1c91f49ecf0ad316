import Mathlib.Data.List.Nodup
import Mathlib.Data.List.Perm.Basic
import Mathlib.Data.List.Range

/-!
# Promises and what they were settled with

Promises are numbered in the order they are made. A ledger lists the settled
ones with their values, in the order they were settled; settling a promise for a
second time leaves it as it is.

The account of a component that makes promises says where each of them stands:
the settled ones and the pending ones are together all that were made, each
once. Whoever takes pending promises and settles all of them keeps the account,
and once nothing is pending every promise has its one value.
-/

namespace Notifkit.Promises

universe u
variable {V : Type u}

/-- Settle a promise, unless it is settled already. -/
def settle (settled : List (Nat × V)) (entry : Nat × V) : List (Nat × V) :=
  if entry.1 ∈ settled.map Prod.fst then settled else settled ++ [entry]

/-- Settle several promises, one after the other. -/
def settleAll (settled entries : List (Nat × V)) : List (Nat × V) := entries.foldl settle settled

/-- Of `made` promises the ledger has some, and the others are pending: each one is at one place. -/
def Accounted (made : Nat) (settled : List (Nat × V)) (pending : List Nat) : Prop :=
  (settled.map Prod.fst ++ pending).Perm (List.range made)

/-- Promises none of which the ledger has are added to it in order. -/
theorem settleAll_new {settled entries : List (Nat × V)}
    (fresh : (settled.map Prod.fst ++ entries.map Prod.fst).Nodup) :
    settleAll settled entries = settled ++ entries := by
  induction entries generalizing settled with
  | nil => simp [settleAll]
  | cons entry rest inductionHypothesis =>
    have moved : ((settled ++ [entry]).map Prod.fst ++ rest.map Prod.fst).Nodup := by
      simpa using fresh
    have absent : entry.1 ∉ settled.map Prod.fst := by
      intro listed
      have apart := (List.nodup_append.mp fresh).2.2
      exact apart entry.1 listed entry.1 (by simp) rfl
    calc settleAll settled (entry :: rest) = settleAll (settle settled entry) rest := rfl
      _ = settleAll (settled ++ [entry]) rest := by rw [settle, if_neg absent]
      _ = settled ++ [entry] ++ rest := inductionHypothesis moved
      _ = settled ++ entry :: rest := by simp

/-- Promises settled in two parts. -/
theorem settleAll_append (settled first second : List (Nat × V)) :
    settleAll settled (first ++ second) = settleAll (settleAll settled first) second :=
  List.foldl_append

/-- Settling what is settled changes nothing. -/
theorem settleAll_again {settled entries : List (Nat × V)}
    (all : ∀ entry ∈ entries, entry.1 ∈ settled.map Prod.fst) :
    settleAll settled entries = settled := by
  induction entries with
  | nil => rfl
  | cons entry rest inductionHypothesis =>
    have listed : entry.1 ∈ settled.map Prod.fst := all entry (List.mem_cons_self)
    calc settleAll settled (entry :: rest) = settleAll (settle settled entry) rest := rfl
      _ = settleAll settled rest := by rw [settle, if_pos listed]
      _ = settled := inductionHypothesis
        fun other member => all other (List.mem_cons_of_mem _ member)

namespace Accounted

variable {made : Nat} {settled entries : List (Nat × V)} {pending rest : List Nat}

/-- Before the first promise. -/
theorem none_made : Accounted 0 ([] : List (Nat × V)) [] := List.Perm.refl _

/-- A new promise is pending. -/
theorem make (account : Accounted made settled pending) :
    Accounted (made + 1) settled (pending ++ [made]) := by
  unfold Accounted
  rw [List.range_succ, ← List.append_assoc]
  exact List.Perm.append_right [made] account

/-- Where a pending promise waits does not matter. -/
theorem regroup (account : Accounted made settled pending) (same : pending.Perm rest) :
    Accounted made settled rest :=
  (List.Perm.append_left _ same.symm).trans account

/-- No promise is at two places. -/
theorem nodup (account : Accounted made settled pending) :
    (settled.map Prod.fst ++ pending).Nodup := account.nodup_iff.mpr List.nodup_range

/-- A promise in the ledger has one value. -/
theorem settled_nodup (account : Accounted made settled pending) :
    (settled.map Prod.fst).Nodup := account.nodup.of_append_left

/-- Settling pending promises adds them to the ledger and keeps the account. -/
theorem settled_all (account : Accounted made settled pending)
    (taken : pending.Perm (entries.map Prod.fst ++ rest)) :
    settleAll settled entries = settled ++ entries ∧
      Accounted made (settled ++ entries) rest := by
  have whole : (settled.map Prod.fst ++ (entries.map Prod.fst ++ rest)).Perm (List.range made) :=
    account.regroup taken
  rw [← List.append_assoc] at whole
  constructor
  · exact settleAll_new (whole.nodup_iff.mpr List.nodup_range).of_append_left
  · rw [Accounted, List.map_append]
    exact whole

/-- What the ledger has was made. -/
theorem bounded (account : Accounted made settled pending) {entry : Nat × V}
    (listed : entry ∈ settled) : entry.1 < made := by
  apply List.mem_range.mp
  apply account.mem_iff.mp
  exact List.mem_append_left _ (List.mem_map_of_mem listed)

/-- A promise is settled with one value. -/
theorem value_unique (account : Accounted made settled pending) {promise : Nat} {value other : V}
    (first : (promise, value) ∈ settled) (second : (promise, other) ∈ settled) :
    value = other := by
  have same : (promise, value) = (promise, other) :=
    List.inj_on_of_nodup_map account.settled_nodup first second rfl
  exact congrArg Prod.snd same

/-- With nothing pending every promise made has a value. -/
theorem complete (account : Accounted made settled []) {promise : Nat} (inside : promise < made) :
    ∃ value, (promise, value) ∈ settled := by
  have listed : promise ∈ settled.map Prod.fst ++ [] :=
    account.mem_iff.mpr (List.mem_range.mpr inside)
  rw [List.append_nil] at listed
  obtain ⟨⟨_, value⟩, member, rfl⟩ := List.mem_map.mp listed
  exact ⟨value, member⟩

end Accounted

end Notifkit.Promises
