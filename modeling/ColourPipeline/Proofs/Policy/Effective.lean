import ColourPipeline.Proofs.Options.Collect
import ColourPipeline.Proofs.Policy.Extent
import ColourPipeline.Proofs.Registration

namespace ColourPipeline

namespace Text

lemma notMem_of_mem_split {sep : Char} {cs w : List Char} (h : w ∈ split sep cs) : sep ∉ w := by
  induction cs generalizing w with
  | nil =>
    rw [List.mem_singleton.1 h]
    exact List.not_mem_nil
  | cons c cs ih =>
    rw [split] at h
    cases hs : split sep cs with
    | nil => exact absurd hs (split_ne_nil sep cs)
    | cons v vs =>
      rw [hs] at h ih
      dsimp only at h
      split at h
      · rcases List.mem_cons.1 h with rfl | h
        · exact List.not_mem_nil
        · exact ih h
      · rename_i hc
        rcases List.mem_cons.1 h with rfl | h
        · exact List.not_mem_cons_of_ne_of_not_mem (Ne.symm hc) (ih List.mem_cons_self)
        · exact ih (List.mem_cons_of_mem _ h)

end Text

open Text

lemma optionKey_plain (registration : String) :
    '/' ∉ (optionKey registration).toList ∧ '.' ∉ (optionKey registration).toList := by
  rw [optionKey]
  split
  · rename_i part hp
    have hpart := notMem_of_mem_split (List.mem_reverse.1 (List.mem_of_find?_eq_some hp))
    rw [String.toList_ofList]
    refine ⟨fun h => hpart ((List.takeWhile_prefix _).subset h), fun h => ?_⟩
    simpa using List.mem_takeWhile_imp h
  · simp

def closes (key : String) : Bool := key.toList.getLast?.any (!isBlank ·)

lemma isKey_of_closes {registration : String} (h : closes (optionKey registration)) :
    IsKey (optionKey registration).toList := by
  obtain ⟨c, hc, hb⟩ := (Option.any_eq_true ..).1 h
  have hne : (optionKey registration).toList ≠ [] := fun h => by simp [h] at hc
  have hlast : (optionKey registration).toList.getLast hne = c := by
    rw [List.getLast?_eq_some_getLast hne] at hc
    exact Option.some.inj hc
  refine ⟨hne, (optionKey_plain registration).1, (optionKey_plain registration).2, ?_⟩
  simpa [hlast] using hb

namespace OptionSet

variable {s : OptionSet} {k : String} {filter : AttributeFilter}

lemma nodup_filtered (hs : s.keys.Nodup) (filter : AttributeFilter) :
    (s.filtered filter).keys.Nodup :=
  nodup_of_sublist hs List.filter_sublist

lemma find?_filtered (hs : s.keys.Nodup) :
    (s.filtered filter).find? k = (s.find? k).filter (filter.admits ·.flags) := by
  refine Option.ext fun e => ?_
  rw [find?_eq_some (nodup_filtered hs filter), Option.filter_eq_some_iff, find?_eq_some hs,
    filtered, List.mem_filter]
  tauto

end OptionSet

namespace Policy

variable {s : OptionSet} {r : Path} {e : OptionEntry} {k : String}

lemma key_rehome (he : closes e.key) (r : Path) : (rehome r e).key = e.key :=
  optionKey_join r (isKey_of_closes he)

lemma keys_rehomed (h : ∀ e ∈ s.entries, closes e.key) (r : Path) :
    OptionSet.keys ⟨s.entries.map (rehome r)⟩ = s.keys := by
  rw [OptionSet.keys, OptionSet.keys, List.map_map]
  refine List.map_congr_left fun e he => ?_
  rw [Function.comp_apply, key_rehome (h e he)]

lemma find?_rehomed (hs : s.keys.Nodup) (h : ∀ e ∈ s.entries, closes e.key) (r : Path)
    (k : String) : (OptionSet.ofList (s.entries.map (rehome r))).find? k =
      (s.find? k).map (rehome r) := by
  have hn : (OptionSet.keys ⟨s.entries.map (rehome r)⟩).Nodup := by rwa [keys_rehomed h r]
  have hof : OptionSet.ofList (s.entries.map (rehome r)) = ⟨s.entries.map (rehome r)⟩ :=
    OptionSet.ofList_entries hn
  refine Option.ext fun e => ?_
  rw [hof, OptionSet.find?_eq_some hn, Option.map_eq_some_iff, List.mem_map]
  constructor
  · rintro ⟨⟨d, hd, rfl⟩, hk⟩
    rw [key_rehome (h d hd)] at hk
    exact ⟨d, (OptionSet.find?_eq_some hs).2 ⟨hd, hk⟩, rfl⟩
  · rintro ⟨d, hd, rfl⟩
    obtain ⟨hd, hk⟩ := (OptionSet.find?_eq_some hs).1 hd
    exact ⟨⟨d, hd, rfl⟩, (key_rehome (h d hd) r).trans hk⟩

lemma map_rehome (s : OptionSet) (r : Path) (k : String) (p : OptionEntry → Bool) :
    ((s.find? k).filter p).map (rehome r) = ((s.find? k).filter p).map fun e =>
      { e with registration := (r.join k).text, source := .defaults } := by
  refine Option.map_congr fun e he => ?_
  have hk := OptionSet.key_of_find? (Option.filter_eq_some_iff.1 he).1
  rw [rehome, hk]

/-- The source of defaults goes before the filter of a stage, and the filter before what policy
declares, which is told anew under the registration of the stage. -/
theorem find?_effectiveDefaults (stage : Stage) (declared : OptionSet) (source : DefaultsSource)
    (filter : AttributeFilter) (hd : declared.keys.Nodup) (hk : ∀ k ∈ declared.keys, closes k)
    (hf : stage.filter.defaults.keys.Nodup)
    (hq : (source.query stage.registration filter).keys.Nodup) :
    (∀ k, (effectiveDefaults stage declared source filter).find? k =
      ((source.query stage.registration filter).find? k).or
        (((stage.filter.defaults.find? k).filter (filter.admits ·.flags)).or
          (((declared.find? k).filter (filter.admits ·.flags)).map fun e =>
            { e with
              registration := (stage.registration.join k).text
              source := .defaults }))) ∧
      (effectiveDefaults stage declared source filter).keys.Nodup := by
  have hclose : ∀ e ∈ (declared.filtered filter).entries, closes e.key := fun e he =>
    hk _ (List.mem_map_of_mem (List.mem_of_mem_filter he))
  refine ⟨fun k => ?_, ?_⟩
  · rw [effectiveDefaults, OptionSet.find?_merge hq,
      OptionSet.find?_merge (OptionSet.nodup_filtered hf filter), OptionSet.find?_filtered hf,
      find?_rehomed (OptionSet.nodup_filtered hd filter) hclose, OptionSet.find?_filtered hd,
      map_rehome]
  · exact OptionSet.nodup_merge (OptionSet.nodup_merge (OptionSet.nodup_ofList _) _) _

def preferred : OptionSet :=
  .ofList [{ registration := "icc/rendering_intent", value := .int 3, source := .user }]

def presetDefaults : OptionSet :=
  .ofList [
    { registration := "icc/rendering_bpc", value := .int 1 },
    { registration := "icc/rendering_intent", value := .int 0 },
    { registration := "icc/profile_proof", value := .text "a.icc" }]

theorem find?_effectiveDefaults_preferred :
    let D := effectiveDefaults (transformStage .empty) presetDefaults (.fixed preferred) .all
    D.value? "rendering_intent" = some (.int 3) ∧ D.value? "gain" = some (.double 1) ∧
      D.find? "rendering_bpc" = some {
        registration := "org/tincture/colour/icc.transform/rendering_bpc"
        value := .int 1
        source := .defaults } ∧
      D.find? "proof_soft" = none := by
  have h := (find?_effectiveDefaults (transformStage .empty) presetDefaults (.fixed preferred) .all
    (by decide +kernel) (by decide +kernel) (by decide +kernel) (by decide +kernel)).1
  dsimp only [OptionSet.value?]
  rw [h, h, h, h]
  decide +kernel

end Policy

end ColourPipeline
