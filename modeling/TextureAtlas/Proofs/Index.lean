import Mathlib.Data.Finset.Card
import TextureAtlas.Proofs.Stream
import TextureAtlas.TextureIndex

/-!
# The index finds the first reader

An index built by pushing readers holds, for each name, the position of the first reader that
announces it (`TextureIndex.Indexes`), so a look-up is a search of the readers in their order
(`TextureIndex.lookup_ofReaders`). An archive announces exactly the names of its entries, and what it
announces it delivers (`Archive.entry?_of_contains`). So the index of some archives gives the earliest one that
has an entry of a name (`TextureIndex.finds_earliest_archive`).
-/

namespace TextureAtlas

/-! ## Archives as readers -/

theorem Reader.contains_ofArchive (a : Archive) (name : String) :
    (Reader.ofArchive a).contains name = a.contains name := by
  rw [Bool.eq_iff_iff, Archive.contains, Archive.entry?, List.find?_isSome]
  simp only [Reader.contains, Reader.ofArchive, List.contains_iff_mem, List.mem_map, beq_iff_eq]

theorem Archive.contains_iff {a : Archive} {name : String} :
    a.contains name = true ↔ ∃ e ∈ a.entries, e.name = name := by
  simp only [contains, entry?, List.find?_isSome, beq_iff_eq]

theorem Archive.contains_eq_false_iff {a : Archive} {name : String} :
    a.contains name = false ↔ ∀ e ∈ a.entries, e.name ≠ name := by
  rw [← Bool.not_eq_true, contains_iff]
  simp only [not_exists, not_and, ne_eq]

/-- An archive delivers under a name an entry of that name. -/
theorem Archive.entry?_of_contains {a : Archive} {name : String} (h : a.contains name = true) :
    ∃ e, a.entry? name = some e ∧ e.name = name := by
  obtain ⟨e, he⟩ := Option.isSome_iff_exists.1 h
  exact ⟨e, he, by simpa using List.find?_some he⟩

namespace TextureIndex

/-! ## Positions of names -/

/-- The index of these readers: each name has the position of the first one that announces it. -/
structure Indexes (t : TextureIndex) (readers : List Reader) : Prop where
  readers_eq : t.readers = readers.toArray
  byName_eq : ∀ name, t.byName[name]? = readers.findIdx? (·.contains name)

theorem getElem?_foldl_insertIfNew (names : List String) (m : Std.HashMap String Nat) (i : Nat)
    (name : String) :
    (names.foldl (fun m k => m.insertIfNew k i) m)[name]? =
      m[name]?.or (if names.contains name then some i else none) := by
  induction names generalizing m with
  | nil => simp
  | cons k names ih =>
    rw [List.foldl_cons, ih, Std.HashMap.getElem?_insertIfNew]
    by_cases hk : k = name
    · subst hk
      by_cases hm : k ∈ m
      · simp [hm]
      · simp [hm]
    · simp [hk, Ne.symm hk]

theorem Indexes.push {t : TextureIndex} {readers : List Reader} (h : t.Indexes readers) (r : Reader) :
    (t.push r).Indexes (readers ++ [r]) where
  readers_eq := by simp [TextureIndex.push, h.readers_eq]
  byName_eq name := by
    simp only [TextureIndex.push]
    rw [getElem?_foldl_insertIfNew, h.byName_eq, List.findIdx?_append, h.readers_eq, List.size_toArray]
    congr 1
    simp only [List.findIdx?_cons, List.findIdx?_nil, Reader.contains]
    split <;> simp

theorem indexes_ofReaders (readers : List Reader) : (ofReaders readers).Indexes readers := by
  have hfold : ∀ (rest : List Reader) {t : TextureIndex} {done : List Reader}, t.Indexes done →
      (rest.foldl TextureIndex.push t).Indexes (done ++ rest) := by
    intro rest
    induction rest with
    | nil => intro t done h; simpa using h
    | cons r rest ih =>
      intro t done h
      simpa using ih (h.push r)
  exact hfold readers ⟨rfl, fun name => by simp⟩

/-! ## Look-ups -/

theorem lookup_ofReaders (readers : List Reader) (name : String) :
    (ofReaders readers).lookup name = readers.find? (·.contains name) := by
  have h := indexes_ofReaders readers
  rw [lookup, h.byName_eq, h.readers_eq, List.find?_eq_bind_findIdx?_getElem?]
  simp only [List.getElem?_toArray]

/-- An archive's texture comes from the first archive that has an entry of its name. -/
theorem lookup_ofArchives (archives : List Archive) (name : String) :
    (ofArchives archives).lookup name = (archives.find? (·.contains name)).map Reader.ofArchive := by
  rw [ofArchives, lookup_ofReaders, List.find?_map]
  simp only [Function.comp_def, Reader.contains_ofArchive]

/-! ## Which archive, and how many names -/

/-- The names in use are those that some reader announces. -/
theorem Indexes.mem_byName_iff {t : TextureIndex} {readers : List Reader} (h : t.Indexes readers) {name : String} :
    name ∈ t.byName ↔ ∃ r ∈ readers, name ∈ r.announced := by
  rw [← Std.HashMap.isSome_getElem?_iff_mem, h.byName_eq, List.findIdx?_isSome, List.any_eq_true]
  simp only [Reader.contains, List.contains_iff_mem]

theorem Indexes.numTextures_eq {t : TextureIndex} {readers : List Reader} (h : t.Indexes readers) :
    t.numTextures = (readers.flatMap (·.announced)).toFinset.card := by
  rw [numTextures, ← Std.HashMap.length_keys, ← List.toFinset_card_of_nodup Std.HashMap.nodup_keys]
  congr 1
  ext name
  rw [List.mem_toFinset, List.mem_toFinset, Std.HashMap.mem_keys, h.mem_byName_iff, List.mem_flatMap]

theorem lookup_ofArchives_eq_some {archives : List Archive} {name : String} {r : Reader} :
    (ofArchives archives).lookup name = some r ↔ ∃ before a after, archives = before ++ a :: after ∧
      a.contains name = true ∧ (∀ b ∈ before, b.contains name = false) ∧ r = .ofArchive a := by
  rw [lookup_ofArchives, Option.map_eq_some_iff]
  simp only [List.find?_eq_some_iff_append, Bool.not_eq_true']
  constructor
  · rintro ⟨a, ⟨ha, before, after, harchives, hbefore⟩, rfl⟩
    exact ⟨before, a, after, harchives, ha, hbefore, rfl⟩
  · rintro ⟨before, a, after, harchives, ha, hbefore, rfl⟩
    exact ⟨a, ⟨ha, before, after, harchives, hbefore⟩, rfl⟩

/-- **A texture is found in the earliest archive that has it.** Whatever archives an index is made of, and whatever
names they share or repeat, a look-up gives the first one with an entry of the name, and nothing only if none has
one. That archive delivers the entry: it reports it missing to no receiver that does not report so itself. The index
counts every archive, and every name once. -/
theorem finds_earliest_archive (archives : List Archive) :
    (∀ name r, (ofArchives archives).lookup name = some r ↔ ∃ before a after,
      archives = before ++ a :: after ∧ (∃ e ∈ a.entries, e.name = name) ∧
      (∀ b ∈ before, ∀ e ∈ b.entries, e.name ≠ name) ∧ r = .ofArchive a) ∧
    (∀ name, (ofArchives archives).lookup name = none ↔ ∀ a ∈ archives, ∀ e ∈ a.entries, e.name ≠ name) ∧
    (∀ name a, (ofArchives archives).lookup name = some (.ofArchive a) → a.contains name = true ∧
      ∀ {σ : Type} (sink : FrameSink σ), sink.NeverUnknown → ∀ s archive entry,
        (a.extract name sink s).1 ≠ .error (.unknownEntry archive entry)) ∧
    (ofArchives archives).numTextures = ((archives.flatMap (·.entries)).map (·.name)).toFinset.card ∧
    (ofArchives archives).numReaders = archives.length := by
  refine ⟨fun name r => ?_, fun name => ?_, fun name a ha => ?_, ?_, ?_⟩
  · simp only [lookup_ofArchives_eq_some, Archive.contains_iff, Archive.contains_eq_false_iff]
  · rw [lookup_ofArchives, Option.map_eq_none_iff, List.find?_eq_none]
    simp only [Bool.not_eq_true, Archive.contains_eq_false_iff]
  · have hcontained : a.contains name = true := by
      obtain ⟨before, b, after, -, hb, -, heq⟩ := lookup_ofArchives_eq_some.1 ha
      rw [← Reader.contains_ofArchive, heq, Reader.contains_ofArchive, hb]
    exact ⟨hcontained, fun sink hsink s => a.extract_ne_unknownEntry hcontained hsink s⟩
  · rw [ofArchives, (indexes_ofReaders _).numTextures_eq, List.flatMap_map, List.map_flatMap]
    rfl
  · rw [ofArchives, numReaders, (indexes_ofReaders _).readers_eq, List.size_toArray, List.length_map]

end TextureIndex
end TextureAtlas
