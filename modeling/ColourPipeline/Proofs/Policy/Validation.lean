import ColourPipeline.Policy.Validation
import Mathlib

namespace ColourPipeline.Policy

def requestKeys : List String :=
  ["rendering_intent", "rendering_intent_proof", "proof_soft", "proof_hard", "rendering_bpc",
    "rendering_gamut_warning", "rendering_high_precision", "profiles_simulation"]

def Suits (key : String) (v : OptionValue) : Prop :=
  match key with
  | "rendering_intent" | "rendering_intent_proof" => ∃ n : Int64, v = .int n ∧ 0 ≤ n ∧ n ≤ 3
  | "profiles_simulation" => (∃ names, v = .profiles names) ∨ ∃ name, v = .text name
  | _ => v = .int 0 ∨ v = .int 1

def Offends (s : OptionSet) (key : String) : Prop := ∃ v, s.value? key = some v ∧ ¬ Suits key v

def Acceptable (s : OptionSet) : Prop := ∀ key ∈ requestKeys, ¬ Offends s key

def FirstOffending (s : OptionSet) (key : String) : Prop :=
  ∃ before after, requestKeys = before ++ key :: after ∧ Offends s key ∧
    ∀ k ∈ before, ¬ Offends s k

variable {s : OptionSet} {key : String} {v : OptionValue}

lemma isIntent_iff : isIntent v = true ↔ ∃ n : Int64, v = .int n ∧ 0 ≤ n ∧ n ≤ 3 := by
  cases v <;> simp [isIntent]

lemma isSwitch_iff : isSwitch v = true ↔ v = .int 0 ∨ v = .int 1 := by
  cases v <;> simp [isSwitch]

lemma isProfileList_iff :
    isProfileList v = true ↔ (∃ names, v = .profiles names) ∨ ∃ name, v = .text name := by
  cases v <;> simp [isProfileList]

def refusedAt (s : OptionSet) (key : String) : Option (String × String) :=
  match key with
  | "rendering_intent" | "rendering_intent_proof" =>
    refused s isIntent (·.display ++ " is not an intent in 0..=3") key
  | "profiles_simulation" => refused s isProfileList (fun _ => "expected a profile list") key
  | _ => refused s isSwitch (·.display ++ " is not a 0/1 switch") key

lemma refusal?_eq (s : OptionSet) : refusal? s = requestKeys.findSome? (refusedAt s) := by
  have hkeys : requestKeys = intentKeys ++ (switchKeys ++ [simulationKey]) := by decide +kernel
  have hswitch : switchKeys = ["proof_soft", "proof_hard", "rendering_bpc",
    "rendering_gamut_warning", "rendering_high_precision"] := by decide +kernel
  rw [hkeys, List.findSome?_append, List.findSome?_append, List.findSome?_singleton, refusal?,
    hswitch]
  simp [List.findSome?, intentKeys, simulationKey, refusedAt]

lemma refused_eq_none_iff {test : OptionValue → Bool} {reason : OptionValue → String}
    (h : ∀ v, test v = true ↔ Suits key v) :
    refused s test reason key = none ↔ ¬ Offends s key := by
  rw [refused, Offends]
  cases s.value? key with
  | none => simp
  | some v => simp [← h]

lemma refusedAt_eq_none_iff : refusedAt s key = none ↔ ¬ Offends s key := by
  rw [refusedAt.eq_def]
  split
  · exact refused_eq_none_iff fun v => isIntent_iff
  · exact refused_eq_none_iff fun v => isIntent_iff
  · exact refused_eq_none_iff fun v => isProfileList_iff
  · refine refused_eq_none_iff fun v => isSwitch_iff.trans ?_
    rw [Suits.eq_def]
    split
    · contradiction
    · contradiction
    · contradiction
    · rfl

lemma of_refusedAt {k reason : String} (h : refusedAt s key = some (k, reason)) : k = key := by
  have hr {test : OptionValue → Bool} {f : OptionValue → String}
      (h : refused s test f key = some (k, reason)) : k = key := by
    rw [refused] at h
    split at h
    · split at h <;> cases h
      rfl
    · cases h
  rw [refusedAt.eq_def] at h
  split at h <;> exact hr h

lemma refusal?_eq_none_iff : refusal? s = none ↔ Acceptable s := by
  rw [refusal?_eq, List.findSome?_eq_none_iff]
  exact forall₂_congr fun key _ => refusedAt_eq_none_iff

theorem firstOffending_of_refusal? {reason : String} (h : refusal? s = some (key, reason)) :
    FirstOffending s key := by
  rw [refusal?_eq, List.findSome?_eq_some_iff] at h
  obtain ⟨before, k, after, hkeys, hk, hbefore⟩ := h
  obtain rfl := of_refusedAt hk
  refine ⟨before, after, hkeys, ?_, fun j hj => refusedAt_eq_none_iff.1 (hbefore j hj)⟩
  by_contra hn
  rw [refusedAt_eq_none_iff.2 hn] at hk
  cases hk

example : refusal? (.ofList [{ registration := "proof_soft", value := .int 2 },
    { registration := "y/rendering_intent.front", value := .int 4 }]) =
      some ("rendering_intent", "4 is not an intent in 0..=3") := by decide +kernel

lemma FirstOffending.not_acceptable (h : FirstOffending s key) : ¬ Acceptable s := by
  obtain ⟨before, after, hkeys, hk, -⟩ := h
  exact fun ha => ha key (hkeys ▸ by simp) hk

end ColourPipeline.Policy
