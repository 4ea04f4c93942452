import Localization.Proofs.Fields
import Localization.Proofs.Order
import Localization.Proofs.Result
import Localization.Xliff.Reading

/-! The messages of the files in a document that is read: every key of a file has one message, from
whatever units the document has. -/

namespace Localization.Xliff

theorem nodup_keys_messagesOf {units : List Xml.Element} {m : Fields Text}
    (h : messagesOf units = .ok m) : m.keys.Nodup := by
  obtain ⟨found, -, rfl⟩ := map_eq_ok_iff.mp h
  exact ((Text.sortBy16_perm _ _).map _).nodup_iff.mpr (Fields.nodup_keys_ofList _)

theorem nodup_keys_fileOf {x : Xml.Element} {name : Text} {f : LocalizedFile}
    (h : fileOf x = .ok (name, some f)) : f.messages.keys.Nodup := by
  unfold fileOf at h
  split at h
  · cases h
  split at h
  · cases h
  dsimp only at h
  split at h
  · cases h
  · obtain ⟨m, hm, hfile⟩ := map_eq_ok_iff.mp h
    obtain rfl := Option.some.inj (Prod.mk.inj hfile).2
    exact nodup_keys_messagesOf hm

/-- The files that are read are those of elements, in order. -/
theorem exists_fileOf {xs : List Xml.Element} {files : List LocalizedFile}
    (h : (filesOf xs).1 = .ok files) {f : LocalizedFile} (hf : f ∈ files) :
    ∃ x ∈ xs, ∃ name, fileOf x = .ok (name, some f) := by
  induction xs generalizing files with
  | nil =>
    obtain rfl := Except.ok.inj h
    cases hf
  | cons x xs ih =>
    rw [filesOf] at h
    split at h
    · cases h
    · obtain ⟨y, hy, hfile⟩ := ih h hf
      exact ⟨y, List.mem_cons_of_mem _ hy, hfile⟩
    · rename_i name g hx
      obtain ⟨more, hmore, rfl⟩ := map_eq_ok_iff.mp h
      rcases List.mem_cons.mp hf with rfl | hf
      · exact ⟨x, List.mem_cons_self, name, hx⟩
      · obtain ⟨y, hy, hfile⟩ := ih hmore hf
        exact ⟨y, List.mem_cons_of_mem _ hy, hfile⟩

theorem sortFiles_pairwise (files : List LocalizedFile) :
    (sortFiles files).Pairwise fun a b => Text.nameLe a.name b.name = true := by
  refine List.pairwise_mergeSort (fun a b c hab hbc => ?_) (fun a b => ?_) files
  · exact Text.nameLe_trans hab hbc
  · exact Text.nameLe_total _ _

theorem messages_modernize (f : LocalizedFile) : (modernize f).1.messages = f.messages := by
  unfold modernize
  split <;> rfl

/-- The keys of a file that is imported are distinct. -/
theorem nodup_keys_importDocument {cs : List Char} {files : List LocalizedFile}
    (h : (importDocument cs).1 = .ok files) {f : LocalizedFile} (hf : f ∈ files) :
    f.messages.keys.Nodup := by
  unfold importDocument at h
  split at h
  · cases h
  rename_i hread
  obtain rfl := Except.ok.inj h
  obtain ⟨modern, hmodern, rfl⟩ := List.mem_map.mp hf
  obtain ⟨g, hg, rfl⟩ := List.mem_map.mp hmodern
  rw [messages_modernize]
  unfold read at hread
  dsimp only at hread
  split at hread
  · cases hread
  unfold readElement at hread
  dsimp only at hread
  split at hread
  · cases hread
  obtain ⟨found, hfound, rfl⟩ := map_eq_ok_iff.mp (Prod.mk.inj hread).1
  obtain ⟨x, -, name, hx⟩ := exists_fileOf hfound ((List.mergeSort_perm _ _).mem_iff.mp hg)
  exact nodup_keys_fileOf hx

end Localization.Xliff
