import QueryCriteria.Config.Reading
import QueryCriteria.Proofs.AliasHistory
import QueryCriteria.Proofs.Documents
import QueryCriteria.Proofs.Placeholders

namespace QueryCriteria

open QueryCriteria.Text

theorem PlaceholderStyle.name_of_ofName? {s : String} {style : PlaceholderStyle} (h : ofName? s = some style) :
    style.name = s := by
  unfold ofName? at h
  split at h <;> cases h <;> rfl

theorem QualifyMode.name_of_ofName? {s : String} {mode : QualifyMode} (h : ofName? s = some mode) :
    mode.name = s := by
  unfold ofName? at h
  split at h <;> cases h <;> rfl

namespace Config

def fields : List String :=
  ["placeholder", "parameter_prefix", "alias_prefix", "qualify"]

def text? (c : Config) (key : String) : Option String :=
  c.toEntries.lookup key

variable {c d start : Config} {key text : String} {entries : List (String × String)}
  {items : List (String × Document.Item)}

theorem text?_eq (c : Config) (key : String) : c.text? key =
    if key = "placeholder" then some c.placeholder.name
    else if key = "parameter_prefix" then some c.parameterPrefix
    else if key = "alias_prefix" then some c.aliasPrefix
    else if key = "qualify" then some c.qualify.name else none := by
  rw [text?, toEntries]
  simp only [Document.lookup_cons_eq_ite, List.lookup_nil]

theorem eq_of_text? (h : ∀ key ∈ fields, c.text? key = d.text? key) : c = d := by
  have hplaceholder : c.placeholder.name = d.placeholder.name := Option.some.inj (h "placeholder" (by decide))
  have hparameter : c.parameterPrefix = d.parameterPrefix := Option.some.inj (h "parameter_prefix" (by decide))
  have halias : c.aliasPrefix = d.aliasPrefix := Option.some.inj (h "alias_prefix" (by decide))
  have hqualify : c.qualify.name = d.qualify.name := Option.some.inj (h "qualify" (by decide))
  have hread : ofEntries? c.toEntries = ofEntries? d.toEntries := by
    rw [toEntries, toEntries, hplaceholder, hparameter, halias, hqualify]
  rw [ofEntries?_toEntries, ofEntries?_toEntries] at hread
  exact Option.some.inj hread

theorem text?_setField (h : c.setField (key, text) = some d) :
    key ∈ fields ∧ ∀ other, d.text? other = if other = key then some text else c.text? other := by
  simp only [setField] at h
  split at h
  · next hkey =>
    obtain ⟨style, hstyle, rfl⟩ := Option.map_eq_some_iff.mp h
    have hname := PlaceholderStyle.name_of_ofName? hstyle
    exact ⟨by simp [fields, hkey], fun other => by grind [text?_eq]⟩
  split at h
  · next hkey =>
    obtain rfl := Option.some.inj h
    exact ⟨by simp [fields, hkey], fun other => by grind [text?_eq]⟩
  split at h
  · next hkey =>
    obtain rfl := Option.some.inj h
    exact ⟨by simp [fields, hkey], fun other => by grind [text?_eq]⟩
  split at h
  · next hkey =>
    obtain ⟨mode, hmode, rfl⟩ := Option.map_eq_some_iff.mp h
    have hname := QualifyMode.name_of_ofName? hmode
    exact ⟨by simp [fields, hkey], fun other => by grind [text?_eq]⟩
  · cases h

theorem text?_foldlM (hkeys : (entries.map Prod.fst).Nodup) (h : entries.foldlM setField start = some c) :
    (∀ key ∈ entries.map Prod.fst, key ∈ fields) ∧
      ∀ key, c.text? key = (entries.lookup key).or (start.text? key) := by
  induction entries generalizing start with
  | nil =>
      obtain rfl := Option.some.inj h
      exact ⟨by simp, fun key => rfl⟩
  | cons entry entries ih =>
      obtain ⟨name, text⟩ := entry
      rw [List.map_cons, List.nodup_cons] at hkeys
      rw [List.foldlM_cons] at h
      obtain ⟨next, hnext, hrest⟩ := Option.bind_eq_some_iff.mp h
      obtain ⟨hfield, htext⟩ := text?_setField hnext
      obtain ⟨hfields, htexts⟩ := ih hkeys.2 hrest
      refine ⟨List.forall_mem_cons.mpr ⟨hfield, hfields⟩, fun key => ?_⟩
      rw [htexts, htext, Document.lookup_cons_eq_ite]
      by_cases hkey : key = name
      · subst hkey
        rw [Document.lookup_eq_none_iff.mpr hkeys.1, if_pos rfl, if_pos rfl]
        rfl
      · rw [if_neg hkey, if_neg hkey]

theorem texts_of_mapM (h : (items.mapM fun (key, item) => (fieldText? key item).map (key, ·)) = some entries) :
    entries.map Prod.fst = items.map Prod.fst ∧
      ∀ key, entries.lookup key = (items.lookup key).bind (fieldText? key) ∧
        ((items.lookup key).isSome → (entries.lookup key).isSome) := by
  induction items generalizing entries with
  | nil =>
      obtain rfl := Option.some.inj h
      exact ⟨rfl, fun key => ⟨rfl, id⟩⟩
  | cons entry items ih =>
      obtain ⟨name, item⟩ := entry
      rw [List.mapM_cons] at h
      obtain ⟨first, hfirst, h⟩ := Option.bind_eq_some_iff.mp h
      obtain ⟨rest, hrest, h⟩ := Option.bind_eq_some_iff.mp h
      obtain rfl := Option.some.inj h
      obtain ⟨text, htext, rfl⟩ := Option.map_eq_some_iff.mp hfirst
      obtain ⟨hkeys, hlookup⟩ := ih hrest
      refine ⟨by simp [hkeys], fun key => ?_⟩
      rw [Document.lookup_cons_eq_ite, Document.lookup_cons_eq_ite]
      by_cases hkey : key = name
      · subst hkey
        simp [htext]
      · rw [if_neg hkey, if_neg hkey]
        exact hlookup key

def givenText? (items : List (String × Document.Item)) (key : String) : Option String :=
  match items.lookup key with
  | some item => fieldText? key item
  | none => text? {} key

theorem text?_of_ofItems? (hitems : Document.Distinct items) (h : ofItems? items = some c) :
    (∀ key ∈ items.map Prod.fst, key ∈ fields) ∧ ∀ key, c.text? key = givenText? items key := by
  obtain ⟨entries, hentries, hread⟩ := Option.bind_eq_some_iff.mp h
  obtain ⟨hkeys, hlookup⟩ := texts_of_mapM hentries
  obtain ⟨hfields, htexts⟩ := text?_foldlM (hkeys ▸ hitems) hread
  refine ⟨hkeys ▸ hfields, fun key => ?_⟩
  obtain ⟨htext, hsome⟩ := hlookup key
  rw [htexts, givenText?]
  cases hitem : items.lookup key with
  | none => simp [htext, hitem]
  | some item =>
      rw [hitem] at htext hsome
      rw [Option.or_of_isSome (hsome rfl), htext]
      rfl

theorem isBare_of_mem_fields (h : key ∈ fields) : Document.IsBare key := by
  have hnonempty : fields.all (fun key => !key.toList.isEmpty) = true := by rfl
  have hchars : fields.all (fun key => key.toList.all Document.isKeyChar) = true := by rfl
  exact ⟨by simpa using List.all_eq_true.mp hnonempty key h,
    List.all_eq_true.mp (List.all_eq_true.mp hchars key h)⟩

theorem ofDocument_toDocument (h : c.validate = .ok ()) : ofDocument c.toDocument = .ok c := by
  have hbare : ∀ entry ∈ c.toEntries, Document.IsBare entry.1 :=
    fun _ hentry => isBare_of_mem_fields (List.mem_map_of_mem hentry)
  have hread := Document.read?_write hbare (show fields.Nodup by decide)
  have htexts : ((c.toEntries.map fun entry => (entry.1, Document.Item.text entry.2)).mapM
      fun (key, item) => (fieldText? key item).map (key, ·)) = some c.toEntries := by
    simp [toEntries, fieldText?, Document.Item.choice?, Document.Item.text?]
  have hitems : ofItems? (c.toEntries.map fun entry => (entry.1, .text entry.2)) = some c := by
    rw [ofItems?, htexts]
    exact ofEntries?_toEntries c
  rw [ofDocument, toDocument, hread, Option.bind_some, hitems]
  simp only [h]

theorem given_of_ofDocument {s : String} (h : ofDocument s = .ok c) :
    ∃ items, Document.read? s = some items ∧ (∀ key ∈ items.map Prod.fst, key ∈ fields) ∧
      ∀ key, c.text? key = givenText? items key := by
  have hread : (Document.read? s).bind ofItems? = some c := by
    simp only [ofDocument] at h
    split at h
    · cases h
    · next d hd =>
      split at h
      · cases h
      · cases h
        exact hd
  obtain ⟨items, hitems, hconfig⟩ := Option.bind_eq_some_iff.mp hread
  exact ⟨items, hitems, text?_of_ofItems? (Document.distinct_read? hitems) hconfig⟩

end Config

section Generated

theorem isIdentifier_name {stem : String} (h : isIdentifier stem = true) (n : UInt64) :
    isIdentifier (NumberedNames.name stem n) = true := by
  have hdigits : (toString n.toNat).toList.all isIdentifierTail = true := by
    rw [List.all_eq_true]
    intro c hc
    have hdigit : c.isDigit = true := Nat.isDigit_of_mem_toDigits (by decide) (by decide) (Nat.toList_repr ▸ hc)
    simp [isIdentifierTail, Char.isAlphanum, hdigit]
  rw [isIdentifier, NumberedNames.name, String.toList_append]
  exact isIdentifierChars_append h hdigits

namespace Scope

variable {s t : Scope} {n? : Option Naming}

theorem Names.stem (h : s.Names n? t) : t.aliases.stem = s.aliases.stem := by
  cases h with
  | silent _ haliases _ => rw [haliases]
  | drawn => exact NumberedNames.stem_drawFree s.reserved s.aliases
  | drawnFor => exact NumberedNames.stem_drawFree s.reserved s.aliases
  | fixed => rfl

theorem Names.numbered (h : s.Names n? t) {n : Naming} (hn : n ∈ n?) (hdrawn : n.isDrawn = true) :
    ∃ i, n.name = NumberedNames.name s.aliases.stem i := by
  have hnext : s.nextAlias.1 = NumberedNames.name s.aliases.stem
      (s.aliases.issued + UInt64.ofNat (s.aliases.searchLength s.reserved)) :=
    congrArg Prod.fst (NumberedNames.drawFree_eq s.reserved s.aliases)
  cases h with
  | silent => cases hn
  | drawn =>
      obtain rfl := Option.some.inj hn
      exact ⟨_, hnext⟩
  | drawnFor =>
      obtain rfl := Option.some.inj hn
      exact ⟨_, hnext⟩
  | fixed =>
      obtain rfl := Option.some.inj hn
      cases hdrawn

theorem numbered_namings {as : List Action} (has : ∀ a ∈ as, ∀ c, a ≠ .compile c) {n : Naming}
    (hn : n ∈ s.namings as) (hdrawn : n.isDrawn = true) : ∃ i, n.name = NumberedNames.name s.aliases.stem i := by
  induction as generalizing s with
  | nil => cases hn
  | cons a as ih =>
      obtain ⟨ha, has⟩ := List.forall_mem_cons.mp has
      have hnames := s.names_step ha
      rcases List.mem_append.mp hn with hfirst | hrest
      · exact hnames.numbered (Option.mem_toList.mp hfirst) hdrawn
      · obtain ⟨i, hi⟩ := ih has hrest
        exact ⟨i, hnames.stem ▸ hi⟩

theorem numbered_issued (config : Config) (registry : Model.Registry) {as : List Action} {drawn : String}
    (h : drawn ∈ (fresh config registry).issued as) :
    ∃ i, drawn = NumberedNames.name config.parameterPrefix i := by
  obtain ⟨-, -, hissued⟩ := parameters_run_fresh config registry as
  rw [hissued, NumberedNames.drawMany_eq_map] at h
  obtain ⟨i, -, rfl⟩ := List.mem_map.mp h
  exact ⟨_, rfl⟩

end Scope

end Generated

theorem configurations_read_back :
    (∀ c : Config, isIdentifier c.parameterPrefix = true → isIdentifier c.aliasPrefix = true →
      Config.ofDocument c.toDocument = .ok c) ∧
    ∀ s c, Config.ofDocument s = .ok c →
      isIdentifier c.parameterPrefix = true ∧ isIdentifier c.aliasPrefix = true ∧
      (∃ items, Config.Document.read? s = some items ∧ (∀ key ∈ items.map Prod.fst, key ∈ Config.fields) ∧
        ∀ d, d = c ↔ ∀ key ∈ Config.fields, d.text? key = Config.givenText? items key) ∧
      (∀ registry as, ∀ drawn ∈ (Scope.fresh c registry).issued as,
        isIdentifier drawn = true ∧ ∃ i, drawn = NumberedNames.name c.parameterPrefix i) ∧
      (∀ registry as, ∀ n ∈ (Scope.fresh c registry).namings ((Scope.fresh c registry).unfolded as),
        n.isDrawn = true → isIdentifier n.name = true ∧ ∃ i, n.name = NumberedNames.name c.aliasPrefix i) ∧
      (∀ i j, NumberedNames.name c.parameterPrefix i = NumberedNames.name c.parameterPrefix j → i = j) ∧
      ∀ i j, NumberedNames.name c.aliasPrefix i = NumberedNames.name c.aliasPrefix j → i = j := by
  refine ⟨fun c hparameter halias => Config.ofDocument_toDocument (c.validate_eq_ok_iff.mpr ⟨hparameter, halias⟩),
    fun s c h => ?_⟩
  obtain ⟨hparameter, halias⟩ := c.validate_eq_ok_iff.mp (Config.validate_of_ofDocument h)
  obtain ⟨items, hitems, hknown, htexts⟩ := Config.given_of_ofDocument h
  refine ⟨hparameter, halias, ⟨items, hitems, hknown, fun d => ⟨?_, fun hd => ?_⟩⟩,
    fun registry as drawn hdrawn => ?_, fun registry as n hn hdrawn => ?_,
    fun _ _ => NumberedNames.name_inj, fun _ _ => NumberedNames.name_inj⟩
  · rintro rfl key -
    exact htexts key
  · exact Config.eq_of_text? fun key hkey => (hd key hkey).trans (htexts key).symm
  · obtain ⟨i, rfl⟩ := Scope.numbered_issued c registry hdrawn
    exact ⟨isIdentifier_name hparameter i, i, rfl⟩
  · obtain ⟨i, hi⟩ := Scope.numbered_namings Scope.ne_compile_of_mem_unfolded hn hdrawn
    exact ⟨hi ▸ isIdentifier_name halias i, i, hi⟩

def briefing : String :=
  "qualify = \"never\"\n'alias_prefix'= \"a_\" # as in the reports\n"

theorem briefing_read_back :
    Config.ofDocument briefing = .ok { aliasPrefix := "a_", qualify := .never } ∧
      ∃ items, Config.Document.read? briefing = some items ∧ items.map Prod.fst = ["qualify", "alias_prefix"] ∧
        Config.givenText? items "placeholder" = some "named" ∧ Config.givenText? items "alias_prefix" = some "a_" := by
  have hread : Config.ofDocument briefing = .ok { aliasPrefix := "a_", qualify := .never } := by decide +kernel
  obtain ⟨-, -, ⟨items, hitems, -, honly⟩, -⟩ := configurations_read_back.2 briefing _ hread
  have htexts := (honly _).mp rfl
  have hkeys : (Config.Document.read? briefing).map (·.map Prod.fst) = some ["qualify", "alias_prefix"] := by
    decide +kernel
  rw [hitems] at hkeys
  exact ⟨hread, items, hitems, Option.some.inj hkeys, (htexts _ (by decide)).symm, (htexts _ (by decide)).symm⟩

end QueryCriteria
