import Localization.Proofs.Xliff.Unit

/-! Which ids are digests. A unit keeps its key and its message encoded, and what is written for an
id hangs on whether one begins with the other. -/

namespace Localization.Xliff

theorem Entity.encode_injective : Function.Injective encode :=
  Function.LeftInverse.injective decode_encode

namespace TransUnit

variable {key : Text} {v : Json} {u : TransUnit}

/-- A unit keeps the key of its entry, encoded. -/
theorem id_of_ofEntry (h : ofEntry key v = .ok u) : u.id = Entity.encode key := by
  obtain ⟨_, -, h⟩ := bind_eq_ok_iff.mp h
  obtain ⟨_, -, h⟩ := bind_eq_ok_iff.mp h
  obtain ⟨_, -, h⟩ := bind_eq_ok_iff.mp h
  obtain rfl := Except.ok.inj h
  rfl

/-- A unit keeps the message of its entry, encoded. -/
theorem message_of_ofEntry {m : Text} (h : ofEntry key v = .ok u)
    (hm : Bundle.messageOf v = .ok (.string m)) : u.message = Entity.encode m := by
  obtain ⟨_, hmessage, h⟩ := bind_eq_ok_iff.mp h
  obtain ⟨_, hpart, h⟩ := bind_eq_ok_iff.mp h
  obtain ⟨_, -, h⟩ := bind_eq_ok_iff.mp h
  obtain rfl := Except.ok.inj h
  obtain rfl := Except.ok.inj (hmessage.symm.trans hm)
  exact (Except.ok.inj hpart).symm

theorem writtenId_of_ofEntry {m : Text} (h : ofEntry key v = .ok u)
    (hm : Bundle.messageOf v = .ok (.string m)) : u.writtenId =
      if m <+: key then hashId (Entity.encode key) else Entity.encode key := by
  rw [writtenId, id_of_ofEntry h, message_of_ofEntry h hm]
  simp only [List.isPrefixOf_iff_prefix, Entity.encode_prefix_iff]

/-- The line that opens a unit has what is written for its id. -/
theorem head?_of_lines? {language : Text} {ls : List Text} (h : u.lines? language = some ls) :
    ls.head? =
      some (Text.ofString "    <trans-unit id=\"" ++ Entity.encode u.writtenId ++ "\">") := by
  rw [lines?] at h
  split at h
  · cases h
  · obtain rfl := Option.some.inj h
    rfl

end TransUnit

/-- One encoded text begins another exactly when the texts do. So the id that is written is a digest
for those units alone whose key begins with their message, and the encoded key for all others; and
ids that are kept are the same only for the same key. -/
theorem ids_of_prefixes :
    (∀ k m : Text, Entity.encode m <+: Entity.encode k ↔ m <+: k) ∧
      (∀ (key m language : Text) (v : Json) (u : TransUnit) (ls : List Text),
        TransUnit.ofEntry key v = .ok u → Bundle.messageOf v = .ok (.string m) →
        u.lines? language = some ls →
        ls.head? = some (Text.ofString "    <trans-unit id=\"" ++ Entity.encode
          (if m <+: key then hashId (Entity.encode key) else Entity.encode key) ++ "\">")) ∧
      ∀ (key key' : Text) (v v' : Json) (u u' : TransUnit), TransUnit.ofEntry key v = .ok u →
        TransUnit.ofEntry key' v' = .ok u' → (u.id = u'.id ↔ key = key') := by
  refine ⟨fun k m => Entity.encode_prefix_iff, ?_, ?_⟩
  · intro key m language v u ls hu hm hls
    rw [TransUnit.head?_of_lines? hls, TransUnit.writtenId_of_ofEntry hu hm]
  · intro key key' v v' u u' hu hu'
    rw [TransUnit.id_of_ofEntry hu, TransUnit.id_of_ofEntry hu']
    exact Entity.encode_injective.eq_iff

/-- A message that ends with the sign of entities begins its key, and a line end does not begin
another one whose entity has the same first characters. -/
theorem ids_of_prefixes_signs :
    let digest : TransUnit := ⟨"a&amp;b", "a&amp;", none⟩
    let literal : TransUnit := ⟨"a&#13;", "a&#10;", none⟩
    TransUnit.ofEntry "a&b" (.string "a&") = .ok digest ∧
      TransUnit.ofEntry "a\r" (.string "a\n") = .ok literal ∧
      (digest.lines? "en").bind List.head? = some (Text.ofString "    <trans-unit id=\"" ++
        Entity.encode (hashId "a&amp;b") ++ "\">") ∧
      (literal.lines? "en").bind List.head? = some "    <trans-unit id=\"a&amp;#13;\">" ∧
      digest.id ≠ literal.id := by
  intro digest literal
  obtain ⟨-, hid, hsame⟩ := ids_of_prefixes
  have hdigest : TransUnit.ofEntry "a&b" (.string "a&") = .ok digest := by decide
  have hliteral : TransUnit.ofEntry "a\r" (.string "a\n") = .ok literal := by decide
  refine ⟨hdigest, hliteral, ?_, ?_, ?_⟩
  · obtain ⟨ls, hls⟩ : ∃ ls, digest.lines? "en" = some ls := ⟨_, rfl⟩
    rw [hls, Option.bind_some, hid "a&b" "a&" "en" _ _ ls hdigest rfl hls, if_pos (by decide)]
    rfl
  · obtain ⟨ls, hls⟩ : ∃ ls, literal.lines? "en" = some ls := ⟨_, rfl⟩
    rw [hls, Option.bind_some, hid "a\r" "a\n" "en" _ _ ls hliteral rfl hls, if_neg (by decide)]
    decide
  · exact fun h => absurd ((hsame "a&b" "a\r" _ _ _ _ hdigest hliteral).mp h) (by decide)

end Localization.Xliff
