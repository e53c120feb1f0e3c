import ColourPipeline.Options.Json
import ColourPipeline.Proofs.Json.Writer

namespace ColourPipeline

open Json

namespace OptionValue

def Alike : OptionValue → OptionValue → Prop
  | .double x, .double y => x = y ∨ x.isFinite = false ∧ y.isFinite = false
  | v, w => v = w

lemma Alike.refl (v : OptionValue) : Alike v v := by
  cases v with
  | double x => exact .inl rfl
  | _ => rfl

def IsFinite : OptionValue → Prop
  | .double x => x.isFinite = true
  | _ => True

instance : DecidablePred IsFinite
  | .double x => inferInstanceAs (Decidable (x.isFinite = true))
  | .int _ | .text _ | .profiles _ => inferInstanceAs (Decidable True)

lemma Alike.eq_of_isFinite {v w : OptionValue} (h : Alike v w) (hw : w.IsFinite) : v = w := by
  simp only [Alike] at h
  split at h
  · rename_i x y
    rcases h with rfl | ⟨-, hy⟩
    · rfl
    · have hf : y.isFinite = true := hw
      rw [hy] at hf
      cases hf
  · exact h

lemma printed_arr_str (ps : List String) : printedItems (ps.map .str) = ps.map .str := by
  induction ps with
  | nil => rfl
  | cons p ps ih => rw [List.map_cons, printedItems, ih]; rfl

lemma printed_eq_iff {v w : OptionValue} : v.toJson.printed = w.toJson.printed ↔ Alike v w := by
  cases v <;> cases w <;> simp [toJson, printed, printedMembers, printed_arr_str, Alike]
  · exact Int64.toInt_inj
  · rename_i x y
    by_cases hx : x.isFinite = true <;> by_cases hy : y.isFinite = true <;> simp [hx, hy]
    · rintro rfl
      exact absurd hx hy
    · rintro rfl
      exact absurd hy hx
  · rename_i ps qs
    have hinj : Function.Injective Json.str := fun _ _ h => Json.str.inj h
    exact hinj.list_map.eq_iff

end OptionValue

namespace OptionEntry

structure Alike (d e : OptionEntry) : Prop where
  registration : d.registration = e.registration
  value : d.value.Alike e.value
  source : d.source = e.source
  flags : d.flags = e.flags

lemma Alike.eq_of_isFinite {d e : OptionEntry} (h : Alike d e) (he : e.value.IsFinite) :
    d = e := by
  have hv := h.value.eq_of_isFinite he
  obtain ⟨hr, -, hs, hf⟩ := h
  cases d
  cases e
  simp_all

lemma name_inj {a b : OptionSource} (h : a.name = b.name) : a = b := by
  have ha := OptionSource.ofName?_name a
  rw [h, OptionSource.ofName?_name] at ha
  exact (Option.some.inj ha).symm

lemma flags_inj {f g : OptionFlags} (h : f.toJson.printed = g.toJson.printed) : f = g := by
  cases f
  cases g
  simpa [OptionFlags.toJson, printed, printedMembers] using h

lemma printed_eq_iff {d e : OptionEntry} : d.toJson.printed = e.toJson.printed ↔ Alike d e := by
  constructor
  · intro h
    simp only [toJson, OptionSource.toJson, printed, printedMembers, Json.obj.injEq,
      List.cons.injEq, Prod.mk.injEq, true_and, and_true, Json.str.injEq] at h
    obtain ⟨hr, hv, hs, hf⟩ := h
    exact ⟨hr, OptionValue.printed_eq_iff.1 hv, name_inj hs, flags_inj hf⟩
  · rintro ⟨hr, hv, hs, hf⟩
    simp [toJson, printed, printedMembers, hr, OptionValue.printed_eq_iff.2 hv, hs, hf]

end OptionEntry

namespace OptionSet

def Alike (s t : OptionSet) : Prop := List.Forall₂ OptionEntry.Alike s.entries t.entries

def IsFinite (s : OptionSet) : Prop := ∀ e ∈ s.entries, e.value.IsFinite

instance : DecidablePred IsFinite := fun s => List.decidableBAll _ s.entries

lemma Alike.eq_of_isFinite {s t : OptionSet} (h : Alike s t) (ht : t.IsFinite) : s = t := by
  obtain ⟨ds⟩ := s
  obtain ⟨es⟩ := t
  change List.Forall₂ _ ds es at h
  congr 1
  induction h with
  | nil => rfl
  | @cons d e ds es hd _ ih =>
    rw [hd.eq_of_isFinite (ht e List.mem_cons_self),
      ih fun x hx => ht x (List.mem_cons_of_mem _ hx)]

lemma printedItems_eq_iff {ds es : List OptionEntry} :
    printedItems (ds.map (·.toJson)) = printedItems (es.map (·.toJson)) ↔
      List.Forall₂ OptionEntry.Alike ds es := by
  induction ds generalizing es with
  | nil => cases es <;> simp [printedItems]
  | cons d ds ih =>
    cases es with
    | nil => simp [printedItems]
    | cons e es => simp [printedItems, OptionEntry.printed_eq_iff, ih]

lemma printed_eq_iff {s t : OptionSet} : s.toJson.printed = t.toJson.printed ↔ Alike s t := by
  rw [toJson, toJson, printed, printed, Json.arr.injEq]
  exact printedItems_eq_iff

theorem compactText_eq_iff {s t : OptionSet} : s.compactText = t.compactText ↔ Alike s t :=
  compact_eq_iff.trans printed_eq_iff

end OptionSet

end ColourPipeline
