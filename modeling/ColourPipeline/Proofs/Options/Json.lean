import ColourPipeline.Proofs.Json.Reader
import ColourPipeline.Proofs.Options.Alike
import ColourPipeline.Proofs.Options.Unique

namespace ColourPipeline

open Json

section Lists

variable {α β : Type} {write : α → Json} {read : Json → Option β} {f : α → β}

lemma list?_arr (h : ∀ a, read (write a) = some (f a)) (as : List α) :
    list? read (.arr (as.map write)) = some (as.map f) := by
  rw [list?, List.mapM_map]
  exact mapM_eq_some_map fun a _ => h a

lemma faithfulItems_map {as : List α} (h : ∀ a ∈ as, (write a).Faithful) :
    FaithfulItems (as.map write) := by
  induction as with
  | nil => trivial
  | cons a as ih =>
    obtain ⟨ha, has⟩ := List.forall_mem_cons.1 h
    exact ⟨ha, ih has⟩

end Lists

namespace OptionValue

lemma ofJson?_toJson (v : OptionValue) : ofJson? v.toJson = some v := by
  cases v with
  | int n =>
    have hn : (Json.int n.toInt).int64? = some n := by
      rw [int64?, if_pos ⟨n.minValue_le_toInt, n.toInt_le⟩, Int64.ofInt_toInt]
    rw [toJson, ofJson?]
    exact congrArg (Option.map OptionValue.int) hn
  | double x => rfl
  | text s => rfl
  | profiles names =>
    have hn := @list?_arr _ _ Json.str str? id (fun _ => rfl) names
    rw [List.map_id] at hn
    rw [toJson, ofJson?]
    exact congrArg (Option.map OptionValue.profiles) hn

def ReadsBack : OptionValue → Prop
  | .double x => Json.ReadsBack x
  | _ => True

lemma faithful_toJson {v : OptionValue} (h : v.ReadsBack) : v.toJson.Faithful := by
  cases v with
  | int n =>
    have hl := n.le_toInt
    have hu := n.toInt_lt
    exact ⟨⟨by omega, by omega⟩, trivial⟩
  | double x => exact ⟨h, trivial⟩
  | text s => exact ⟨trivial, trivial⟩
  | profiles names => exact ⟨faithfulItems_map fun _ _ => trivial, trivial⟩

end OptionValue

namespace OptionEntry

lemma ofJson?_toJson (e : OptionEntry) : ofJson? e.toJson = some e := by
  have hf : e.toJson.fields? ["registration", "value", "source", "flags"] =
      some [.given (.str e.registration), .given e.value.toJson, .given e.source.toJson,
        .given e.flags.toJson] := rfl
  have hs : OptionSource.ofJson? e.source.toJson = some e.source := OptionSource.ofName?_name _
  have hfl : OptionFlags.ofJson? e.flags.toJson = some e.flags := rfl
  rw [ofJson?, hf]
  simp [Field.required, Field.withDefault, str?, OptionValue.ofJson?_toJson, hs, hfl]

lemma faithful_toJson {e : OptionEntry} (h : e.value.ReadsBack) : e.toJson.Faithful :=
  ⟨trivial, OptionValue.faithful_toJson h, trivial,
    ⟨trivial, trivial, trivial, trivial, trivial⟩, trivial⟩

end OptionEntry

namespace OptionSet

variable {s : OptionSet}

def ReadsBack (s : OptionSet) : Prop := ∀ e ∈ s.entries, e.value.ReadsBack

lemma faithful_toJson (h : s.ReadsBack) : s.toJson.Faithful :=
  faithfulItems_map fun e he => OptionEntry.faithful_toJson (h e he)

lemma ofJson?_toJson (h : s.keys.Nodup) : ofJson? s.toJson = some s := by
  have hl := @list?_arr _ _ OptionEntry.toJson _ id OptionEntry.ofJson?_toJson s.entries
  rw [ofJson?, toJson, hl, List.map_id, Option.map_some, ofList_entries h]

lemma read?_write (hk : s.keys.Nodup) (hs : s.ReadsBack) {sp : Spacing} (hb : sp.Blank) :
    read? (String.ofList (write sp 0 s.toJson)) = some s := by
  rw [read?, parse_write hb (faithful_toJson hs), Option.bind_some, ofJson?_toJson hk]

/-- Both texts of a set give it back, so the short one tells sets apart, and what any text gives
is given back by its own texts. -/
theorem read?_text :
    (∀ s : OptionSet, s.keys.Nodup → s.ReadsBack →
      read? s.text = some s ∧ read? s.compactText = some s) ∧
    (∀ s t : OptionSet, s.IsFinite → t.IsFinite → s.compactText = t.compactText → s = t) ∧
    ∀ (text : String) (s : OptionSet), read? text = some s → s.ReadsBack →
      read? s.text = some s ∧ read? s.compactText = some s := by
  have hback (s : OptionSet) (hk : s.keys.Nodup) (hs : s.ReadsBack) :
      read? s.text = some s ∧ read? s.compactText = some s :=
    ⟨read?_write hk hs Spacing.blank_pretty, read?_write hk hs Spacing.blank_compact⟩
  refine ⟨hback, ?_, ?_⟩
  · exact fun s t _ ht h => (compactText_eq_iff.1 h).eq_of_isFinite ht
  · exact fun text s h hs => hback s (nodup_of_read? h) hs

def gainAndNotes : OptionSet := ⟨[
  { registration := "icc.transform/gain", value := .double 0.1, source := .user },
  { registration := "icc/limit.low", value := .int Int64.minValue, flags := { locked := true } },
  { registration := "icc/note", value := .text "\"é\\\n😀" },
  { registration := "icc/profiles_simulation", value := .profiles ["proof.icc", ""] }]⟩

lemma readsBack_tenth : Json.ReadsBack 0.1 := by
  unfold Json.ReadsBack
  decide +kernel

theorem read?_text_gain : gainAndNotes.keys.Nodup ∧ gainAndNotes.ReadsBack ∧
    read? gainAndNotes.text = some gainAndNotes ∧
    read? gainAndNotes.compactText = some gainAndNotes := by
  have hk : gainAndNotes.keys.Nodup := by decide +kernel
  have hs : gainAndNotes.ReadsBack := by
    simp [ReadsBack, gainAndNotes, OptionValue.ReadsBack, readsBack_tenth]
  obtain ⟨ht, -⟩ := read?_text.1 gainAndNotes hk hs
  exact ⟨hk, hs, read?_text.2.2 _ gainAndNotes ht hs⟩

end OptionSet

end ColourPipeline
