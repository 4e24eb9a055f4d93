import Mathlib
import TextureAtlas.Proofs.Preparation

/-!
# Settings from a file

A document sets a field if it has a node for it that is neither empty nor null (`Overrides.Sets`). The value
that the node reads as is the value of the field, and a field that is not set stays as it was
(`Overrides.honours_ofNode?`). The byte order alone is read twice, and a text that names none is passed over
(`CommandLine.settings_file_honoured`).
-/

namespace TextureAtlas

/-! ## Lists -/

/-- What a list of optional results consists of. -/
theorem mem_of_mapM_eq_some {α β : Type} {f : α → Option β} {l : List α} {l' : List β} (h : l.mapM f = some l')
    {b : β} : b ∈ l' ↔ ∃ a ∈ l, f a = some b := by
  induction l generalizing l' with
  | nil =>
    cases h
    simp
  | cons a l ih =>
    rw [List.mapM_cons] at h
    obtain ⟨c, hc, h⟩ := Option.bind_eq_some_iff.1 h
    obtain ⟨rest, hrest, h⟩ := Option.bind_eq_some_iff.1 h
    cases h
    rw [List.mem_cons, ih hrest, List.exists_mem_cons_iff, hc, Option.some.injEq, eq_comm]

theorem length_eraseDups_le (l : List String) : l.eraseDups.length ≤ l.length := by
  induction hn : l.length using Nat.strong_induction_on generalizing l with
  | _ n ih =>
    cases l with
    | nil => simp
    | cons a l =>
      have hfilter := List.length_filter_le (fun b => !b == a) l
      have hrest := ih _ (by rw [← hn, List.length_cons]; omega) (l.filter fun b => !b == a) rfl
      rw [List.eraseDups_cons, List.length_cons, ← hn, List.length_cons]
      omega

/-- A list that is no longer without its repetitions has none. -/
theorem nodup_of_length_eraseDups {l : List String} (h : l.length ≤ l.eraseDups.length) : l.Nodup := by
  induction l with
  | nil => exact List.nodup_nil
  | cons a l ih =>
    have hfilter := List.length_filter_le (fun b => !b == a) l
    have hrest := length_eraseDups_le (l.filter fun b => !b == a)
    rw [List.eraseDups_cons, List.length_cons, List.length_cons] at h
    have hkept : l.filter (fun b => !b == a) = l :=
      List.filter_sublist.eq_of_length (by omega)
    have hnot : a ∉ l := by
      intro ha
      have := List.filter_eq_self.1 hkept a ha
      simp at this
    rw [hkept] at h
    exact List.nodup_cons.2 ⟨hnot, ih (by omega)⟩

namespace Overrides
open Yaml (Node)
variable {root n v : Node} {doc : Option Node} {field : String} {i : Nat}

/-! ## What a document states -/

/-- The document has the node for the field, if only a null: as the value of an entry with its name, or in its
place among all values. -/
def Has (root : Node) (field : String) (v : Node) : Prop :=
  match root with
  | .mapping _ entries => ∃ k key, (k, v) ∈ entries ∧ root.resolved? k = some key ∧ key.string? = some field
  | .sequence _ items => ∃ i : Nat, Settings.fieldNames[i]? = some field ∧ items[i]? = some v
  | _ => False

/-- The document, if there is one, sets the field to the node, which stands for something. -/
def Sets (doc : Option Node) (field : String) (n : Node) : Prop :=
  ∃ root v, doc = some root ∧ Has root field v ∧ root.resolved? v = some n ∧ n.isSome? = some true

/-- A plain entry sets the field that it is named for. -/
theorem sets_of_mem {p : Yaml.Properties} {entries : List (Node × Node)}
    (hmem : (.scalar {} .plain field.toList, v) ∈ entries) (hv : ∀ root : Node, root.resolved? v = some v)
    (hsome : v.isSome? = some true) : Sets (some (.mapping p entries)) field v := by
  have hname : Node.string? (.scalar {} .plain field.toList) = some field := by
    rw [Node.string?, Node.text?, Option.map_some, String.ofList_toList]
  exact ⟨_, v, rfl, ⟨_, _, hmem, rfl, hname⟩, hv _, hsome⟩

/-- What is `stated` of the field is the value of the node that the document sets it to, if it does. -/
def States {α : Type} (doc : Option Node) (field : String) (read : Node → Option α) (stated : Option α) : Prop :=
  (∀ n, Sets doc field n → ∃ a, read n = some a ∧ stated = some a) ∧ ((∀ n, ¬ Sets doc field n) → stated = none)

/-- The value `result` of the field is the one that the document states, if it sets the field, and otherwise
`usual`. -/
def Honours {α : Type} (doc : Option Node) (field : String) (read : Node → Option α) (usual result : α) : Prop :=
  (∀ n, Sets doc field n → read n = some result) ∧ ((∀ n, ¬ Sets doc field n) → result = usual)

/-- The order that a text names; a text that names none stands for the usual one. -/
def orderOr (usual : ChannelOrder) (n : Node) : Option ChannelOrder :=
  n.string?.map fun given => (ChannelOrder.ofText? given).getD usual

theorem orderOr_of_some {given : String} {order usual : ChannelOrder} (hn : n.string? = some given)
    (horder : ChannelOrder.ofText? given = some order) : orderOr usual n = some order := by
  rw [orderOr, hn, Option.map_some, horder, Option.getD_some]

/-- The settings are those of the document and, for the fields that it does not set, the usual ones. -/
structure HonoursAll (doc : Option Node) (usual settings : Settings) : Prop where
  minWidth : Honours doc "min_width" Node.uint32? usual.minWidth settings.minWidth
  maxWidth : Honours doc "max_width" Node.uint32? usual.maxWidth settings.maxWidth
  tallVariants : Honours doc "tall_variants" Node.truth? usual.tallVariants settings.tallVariants
  swatchSize : Honours doc "swatch_size" Node.uint32? usual.swatchSize settings.swatchSize
  logoThreshold :
    Honours doc "logo_saturation_threshold" Node.single? usual.logoThreshold settings.logoThreshold
  logoMarker : Honours doc "logo_archive_marker" Node.string? usual.logoMarker settings.logoMarker
  channelOrder :
    Honours doc "channel_order" (orderOr usual.channelOrder) usual.channelOrder settings.channelOrder

/-! ## Reading a document -/

/-- No known name stands twice among the entries, so each is found wherever it stands. -/
theorem lookup_eq_some_iff {named : List (String × Node)}
    (hknown : ((named.map (·.1)).filter Settings.fieldNames.contains).Nodup) (hfield : field ∈ Settings.fieldNames) :
    named.lookup field = some v ↔ (field, v) ∈ named := by
  induction named with
  | nil => simp
  | cons e named ih =>
    obtain ⟨name, w⟩ := e
    rw [List.map_cons, List.filter_cons] at hknown
    by_cases hname : field = name
    · subst hname
      rw [if_pos (by simpa using hfield), List.nodup_cons] at hknown
      have hnot : (field, v) ∉ named := by
        intro hmem
        have hagain : field ∈ named.map (·.1) := List.mem_map.2 ⟨(field, v), hmem, rfl⟩
        exact hknown.1 (List.mem_filter.2 ⟨hagain, by simpa using hfield⟩)
      simp [hnot, eq_comm]
    · have hrest : ((named.map (·.1)).filter Settings.fieldNames.contains).Nodup := by
        split at hknown
        · exact (List.nodup_cons.1 hknown).2
        · exact hknown
      rw [List.lookup_cons, beq_eq_false_iff_ne.2 hname, ih hrest]
      simp [hname]

/-- The entries whose keys stand for names. -/
theorem mem_named {entries : List (Node × Node)} {named : List (String × Node)}
    (h : (entries.mapM fun (k, v) => do return (← (← root.resolved? k).string?, v)) = some named) :
    (field, v) ∈ named ↔ ∃ k key, (k, v) ∈ entries ∧ root.resolved? k = some key ∧ key.string? = some field := by
  rw [mem_of_mapM_eq_some h]
  constructor
  · rintro ⟨⟨k, w⟩, hmem, he⟩
    obtain ⟨key, hkey, he⟩ := Option.bind_eq_some_iff.1 he
    obtain ⟨name, hname, he⟩ := Option.bind_eq_some_iff.1 he
    cases he
    exact ⟨k, key, hmem, hkey, hname⟩
  · rintro ⟨k, key, hmem, hkey, hname⟩
    refine ⟨(k, v), hmem, ?_⟩
    simp only [hkey, hname, Option.bind_eq_bind, Option.bind_some]
    rfl

/-- The place of a field among what is stated holds what the document has for it. -/
theorem stated?_getElem? {stated : List (Option Node)} (h : stated? root = some stated)
    (hi : Settings.fieldNames[i]? = some field) {slot : Option Node} (hslot : stated[i]? = some slot) (v : Node) :
    slot = some v ↔ Has root field v := by
  have hblank : ∀ n : Node, (if n.isBlank then some (Settings.fieldNames.map fun _ => none) else none) = some stated →
      slot = none := by
    intro n h
    split at h
    · cases h
      rw [List.getElem?_map, hi] at hslot
      exact (Option.some.inj hslot).symm
    · cases h
  cases root with
  | mapping p entries =>
    obtain ⟨named, hnamed, h⟩ := Option.bind_eq_some_iff.1 (h : statedIn? _ entries = some stated)
    dsimp only at h
    split at h
    · cases h
    · rename_i hknown
      cases h
      rw [List.getElem?_map, hi, Option.map_some, Option.some.injEq] at hslot
      rw [← hslot, lookup_eq_some_iff (nodup_of_length_eraseDups (Nat.not_lt.1 hknown)) (List.mem_of_getElem? hi)]
      exact mem_named hnamed
  | sequence p items =>
    cases h
    rw [List.getElem?_map, Option.map_eq_some_iff] at hslot
    obtain ⟨w, hw, rfl⟩ := hslot
    constructor
    · rintro ⟨⟩
      exact ⟨i, hi, hw⟩
    · rintro ⟨j, hj, hv⟩
      have hnodup : Settings.fieldNames.Nodup := by decide
      obtain ⟨hlt, -⟩ := List.getElem?_eq_some_iff.1 hi
      obtain rfl := (List.getElem?_inj hlt hnodup).1 (hi.trans hj.symm)
      rw [← hw, hv]
  | scalar p style text =>
    rw [hblank (.scalar p style text) h]
    simp [Has]
  | reference n =>
    rw [hblank (.reference n) h]
    simp [Has]

theorem value?_eq {α : Type} {read : Node → Option α} (h : root.resolved? v = some n) :
    value? root read (some v) =
      n.isSome?.bind fun present => if present then (read n).bind fun a => some (some a) else some none := by
  rw [value?, h]
  rfl

/-- What is read of a field is what the document sets it to, and nothing if the document does not set it. -/
theorem states_of_value? {α : Type} {read : Node → Option α} {slot : Option Node} {stated : Option α}
    (hslot : ∀ v, slot = some v ↔ Has root field v) (h : value? root read slot = some stated) :
    States (some root) field read stated := by
  constructor
  · rintro n ⟨_, v, ⟨⟩, hhas, hresolved, hpresent⟩
    rw [(hslot v).2 hhas, value?_eq hresolved, hpresent, Option.bind_some, if_pos rfl] at h
    obtain ⟨a, ha, h⟩ := Option.bind_eq_some_iff.1 h
    cases h
    exact ⟨a, ha, rfl⟩
  · intro hnot
    cases slot with
    | none =>
      cases h
      rfl
    | some v =>
      cases hresolved : root.resolved? v with
      | none =>
        rw [value?, hresolved] at h
        cases h
      | some n =>
        rw [value?_eq hresolved] at h
        obtain ⟨present, hpresent, h⟩ := Option.bind_eq_some_iff.1 h
        cases present with
        | true => exact absurd ⟨root, v, rfl, (hslot v).1 rfl, hresolved, hpresent⟩ (hnot n)
        | false =>
          cases h
          rfl

/-- A document states nothing if there is none. -/
theorem states_none {α : Type} {read : Node → Option α} : States none field read none := by
  refine ⟨?_, fun _ => rfl⟩
  rintro n ⟨root, v, ⟨⟩, -⟩

/-! ## What becomes of the settings -/

theorem States.honours {α : Type} {read : Node → Option α} {stated : Option α} (h : States doc field read stated)
    (usual : α) : Honours doc field read usual (stated.getD usual) := by
  constructor
  · intro n hn
    obtain ⟨a, ha, rfl⟩ := h.1 n hn
    exact ha
  · intro hnot
    rw [h.2 hnot]
    rfl

theorem States.honours_order {stated : Option String} (h : States doc field Node.string? stated)
    (usual : ChannelOrder) :
    Honours doc field (orderOr usual) usual ((stated.bind ChannelOrder.ofText?).getD usual) := by
  constructor
  · intro n hn
    obtain ⟨given, hgiven, rfl⟩ := h.1 n hn
    rw [orderOr, hgiven]
    rfl
  · intro hnot
    rw [h.2 hnot]
    rfl

theorem honours_ofNode? {overrides : Overrides} (h : ofNode? root = some overrides) (usual : Settings) :
    HonoursAll (some root) usual (usual.overridden overrides) := by
  obtain ⟨stated, hstated, h⟩ := Option.bind_eq_some_iff.1 h
  have hslot : ∀ {i : Nat} {field : String} {slot : Option Node}, Settings.fieldNames[i]? = some field →
      stated[i]? = some slot → ∀ v, slot = some v ↔ Has root field v :=
    fun hi hslot => stated?_getElem? hstated hi hslot
  split at h
  · obtain ⟨minWidth, hminWidth, h⟩ := Option.bind_eq_some_iff.1 h
    obtain ⟨maxWidth, hmaxWidth, h⟩ := Option.bind_eq_some_iff.1 h
    obtain ⟨tallVariants, htallVariants, h⟩ := Option.bind_eq_some_iff.1 h
    obtain ⟨swatchSize, hswatchSize, h⟩ := Option.bind_eq_some_iff.1 h
    obtain ⟨logoThreshold, hlogoThreshold, h⟩ := Option.bind_eq_some_iff.1 h
    obtain ⟨logoMarker, hlogoMarker, h⟩ := Option.bind_eq_some_iff.1 h
    obtain ⟨channelOrder, hchannelOrder, h⟩ := Option.bind_eq_some_iff.1 h
    cases h
    exact {
      minWidth := (states_of_value? (hslot (i := 0) rfl rfl) hminWidth).honours _
      maxWidth := (states_of_value? (hslot (i := 1) rfl rfl) hmaxWidth).honours _
      tallVariants := (states_of_value? (hslot (i := 2) rfl rfl) htallVariants).honours _
      swatchSize := (states_of_value? (hslot (i := 3) rfl rfl) hswatchSize).honours _
      logoThreshold := (states_of_value? (hslot (i := 4) rfl rfl) hlogoThreshold).honours _
      logoMarker := (states_of_value? (hslot (i := 5) rfl rfl) hlogoMarker).honours _
      channelOrder := (states_of_value? (hslot (i := 6) rfl rfl) hchannelOrder).honours_order _ }
  · cases h

/-- A text states the overrides of the document in it. -/
theorem honours_ofYaml? {text : String} {overrides : Overrides} (h : ofYaml? text = some overrides)
    (usual : Settings) :
    ∃ doc, Node.ofText? text = some doc ∧ HonoursAll doc usual (usual.overridden overrides) := by
  obtain ⟨doc, hdoc, h⟩ := Option.bind_eq_some_iff.1 h
  refine ⟨doc, hdoc, ?_⟩
  cases doc with
  | some root => exact honours_ofNode? h usual
  | none =>
    cases h
    exact {
      minWidth := states_none.honours _
      maxWidth := states_none.honours _
      tallVariants := states_none.honours _
      swatchSize := states_none.honours _
      logoThreshold := states_none.honours _
      logoMarker := states_none.honours _
      channelOrder := states_none.honours_order _ }

end Overrides

namespace CommandLine
open Yaml (Node)

/-- The settings are those of the file, if there is one, and otherwise the usual ones. -/
def HonoursFile (t : FileTree) (file : Option Path) (usual settings : Settings) : Prop :=
  match file with
  | none => settings = usual
  | some p => ∃ text doc, t.readText p = .ok text ∧ Node.ofText? text = some doc ∧
      Overrides.HonoursAll doc usual settings

theorem Stated.honoursFile {t : FileTree} {o : AtlasOptions} {order : ChannelOrder} {settings : Settings}
    (h : Stated t o order settings) : HonoursFile t o.config (o.settings order) settings := by
  unfold Stated at h
  unfold HonoursFile
  cases hconfig : o.config with
  | none =>
    rw [hconfig] at h
    exact h
  | some p =>
    rw [hconfig] at h
    obtain ⟨text, overrides, htext, hoverrides, rfl⟩ := h
    obtain ⟨doc, hdoc, hall⟩ := Overrides.honours_ofYaml? hoverrides (o.settings order)
    exact ⟨text, doc, htext, hdoc, hall⟩

/-! ## A working directory with a settings file -/

/-- The settings file and nothing else. -/
def settingsTree (text : String) : FileTree where
  nodes := .ofList [(["c.yml"], .file (.ofText text))]

theorem readText_settingsTree (text : String) : (settingsTree text).readText ⟨"c.yml"⟩ = .ok text := by
  have hbytes : (settingsTree text).readBytes ⟨"c.yml"⟩ = .ok text.toUTF8 := rfl
  have hutf8 : String.fromUTF8? text.toUTF8 = some text := dif_pos text.isValidUTF8
  rw [FileTree.readText, hbytes]
  simp only [bind, Except.bind, hutf8]
  rfl

/-- The switches name the settings file and nothing else. -/
def fileOptions : AtlasOptions := { dataDirs := [⟨"d"⟩], config := some ⟨"c.yml"⟩ }

/-- Such a file settles the settings if it states valid ones. -/
theorem leaves_settingsTree {text : String} {overrides : Overrides} (h : Overrides.ofYaml? text = some overrides)
    (hvalid : (Settings.overridden {} overrides).Valid) :
    Run.Leaves (settleSettings fileOptions) { files := settingsTree text } (Settings.overridden {} overrides)
      (settingsTree text) :=
  leaves_settleSettings.2
    ⟨⟨.bgrx, rfl, ⟨text, overrides, readText_settingsTree text, h, rfl⟩, hvalid⟩, rfl⟩

/-- Three values of the file. -/
def threeValues : String := "max_width: 512\ntall_variants: false\nchannel_order: rgbx\n"

/-! ## Settling the settings -/

/-- **A settings file is honoured or refused, but for its byte order.** Settings that are settled are valid.
They have each value that the file states, and for the other fields the values of the switches. A byte order
of the file is the one that its text names; a text that names none leaves the order of the switch, although
the switch itself is refused with such a text. -/
theorem settings_file_honoured (o : AtlasOptions) (s : Session) :
    (∀ settings t, Run.Leaves (settleSettings o) s settings t →
      settings.Valid ∧ t = s.files ∧ ∃ order, ChannelOrder.ofText? o.channelOrder = some order ∧
        HonoursFile s.files o.config (o.settings order) settings) ∧
    (ChannelOrder.ofText? o.channelOrder = none →
      Run.outcome (settleSettings o) s = (.error (.unknownOrder o.channelOrder), s)) := by
  constructor
  · intro settings t h
    obtain ⟨⟨order, horder, hstated, hvalid⟩, ht⟩ := leaves_settleSettings.1 h
    exact ⟨hvalid, ht, order, horder, hstated.honoursFile⟩
  · intro hnone
    rw [settleSettings, orderNamed, hnone]
    rfl

/-- The values of the file, and one of the switches. -/
theorem three_values_honoured : ∃ settings,
    Run.Leaves (settleSettings fileOptions) { files := settingsTree threeValues } settings
      (settingsTree threeValues) ∧
    settings.Valid ∧ settings.maxWidth = 512 ∧ settings.tallVariants = false ∧ settings.channelOrder = .rgbx ∧
      settings.minWidth = 64 := by
  have hdoc : Node.ofText? threeValues = some (some (.mapping {} [
      (.scalar {} .plain "max_width".toList, .scalar {} .plain "512".toList),
      (.scalar {} .plain "tall_variants".toList, .scalar {} .plain "false".toList),
      (.scalar {} .plain "channel_order".toList, .scalar {} .plain "rgbx".toList)])) := by cbv
  have hyaml : Overrides.ofYaml? threeValues =
      some { maxWidth := some 512, tallVariants := some false, channelOrder := some "rgbx" } := by
    rw [Overrides.ofYaml?, hdoc]
    cbv
  have hleaves := leaves_settingsTree hyaml rfl
  obtain ⟨hvalid, -, order, horder, text, doc, htext, hdoc', hall⟩ :=
    (settings_file_honoured fileOptions { files := settingsTree threeValues }).1 _ _ hleaves
  obtain rfl := Except.ok.inj ((readText_settingsTree threeValues).symm.trans htext)
  obtain rfl := Option.some.inj (hdoc.symm.trans hdoc')
  cases horder
  have hwidth := hall.maxWidth.1 (.scalar {} .plain "512".toList)
    (Overrides.sets_of_mem (.head _) (fun _ => rfl) rfl)
  have htall := hall.tallVariants.1 (.scalar {} .plain "false".toList)
    (Overrides.sets_of_mem (.tail _ (.head _)) (fun _ => rfl) rfl)
  have hchannel := hall.channelOrder.1 (.scalar {} .plain "rgbx".toList)
    (Overrides.sets_of_mem (.tail _ (.tail _ (.head _))) (fun _ => rfl) rfl)
  refine ⟨_, hleaves, hvalid, ?_, ?_, ?_, hall.minWidth.2 ?_⟩
  · exact Option.some.inj (hwidth.symm.trans rfl)
  · exact Option.some.inj (htall.symm.trans rfl)
  · exact Option.some.inj (hchannel.symm.trans (Overrides.orderOr_of_some rfl rfl))
  · rintro n ⟨_, v, ⟨⟩, ⟨k, key, hmem, hkey, hname⟩, -⟩
    simp only [List.mem_cons, Prod.mk.injEq, List.not_mem_nil, or_false] at hmem
    rcases hmem with ⟨rfl, rfl⟩ | ⟨rfl, rfl⟩ | ⟨rfl, rfl⟩
    all_goals
      cases hkey
      simp [Node.string?, Node.text?] at hname

/-- An order that nothing is known of leaves the usual settings, as if the file did not set it, and ends the
run if the switch states it. -/
theorem unknown_order_passed_over :
    ChannelOrder.ofText? "cmyk" = none ∧
    (∃ doc n, Node.ofText? "channel_order: cmyk\n" = some doc ∧ Overrides.Sets doc "channel_order" n ∧
      n.string? = some "cmyk") ∧
    Run.Leaves (settleSettings fileOptions) { files := settingsTree "channel_order: cmyk\n" } {}
      (settingsTree "channel_order: cmyk\n") ∧
    Run.outcome (settleSettings { dataDirs := [⟨"d"⟩], channelOrder := "cmyk" })
      { files := settingsTree "channel_order: cmyk\n" } =
        (.error (.unknownOrder "cmyk"), { files := settingsTree "channel_order: cmyk\n" }) := by
  have hdoc : Node.ofText? "channel_order: cmyk\n" = some (some (.mapping {} [
      (.scalar {} .plain "channel_order".toList, .scalar {} .plain "cmyk".toList)])) := by cbv
  have hyaml : Overrides.ofYaml? "channel_order: cmyk\n" = some { channelOrder := some "cmyk" } := by
    rw [Overrides.ofYaml?, hdoc]
    cbv
  have hsets : Overrides.Sets (some (.mapping {} [
      (.scalar {} .plain "channel_order".toList, .scalar {} .plain "cmyk".toList)])) "channel_order"
      (.scalar {} .plain "cmyk".toList) := Overrides.sets_of_mem (.head _) (fun _ => rfl) rfl
  exact ⟨rfl, ⟨_, _, hdoc, hsets, rfl⟩, leaves_settingsTree hyaml rfl, rfl⟩

end CommandLine
end TextureAtlas
