import Mathlib.Data.List.Nodup
import QueryCriteria.Config.Document
import QueryCriteria.Proofs.Scanning

namespace QueryCriteria.Config.Document

variable {c : Char} {cs rest : List Char} {fuel : Nat}

section Quoted

theorem hexValue?_hexDigit {n : Nat} (h : n < 16) : hexValue? (escapeChar.hexDigit n) = some n := by
  revert n
  decide

theorem readCode_four (n : Nat) (h : n < 256) (hvalid : n.isValidChar) :
    readCode 4 0 ('0' :: '0' :: escapeChar.hexDigit (n / 16) :: escapeChar.hexDigit (n % 16) :: rest) =
      some (Char.ofNat n, rest) := by
  have hzero : hexValue? '0' = some 0 := rfl
  have hhigh := hexValue?_hexDigit (show n / 16 < 16 by omega)
  have hlow := hexValue?_hexDigit (show n % 16 < 16 by omega)
  have hvalue : 16 * (16 * (16 * (16 * 0 + 0) + 0) + n / 16) + n % 16 = n := by omega
  simp only [readCode, hzero, hhigh, hlow, hvalue, if_pos hvalid]

theorem toNat_of_not_plain (h : isPlain c = false) : c.toNat < 256 := by
  simp only [isPlain, Bool.or_eq_false_iff, Bool.and_eq_false_iff, decide_eq_false_iff_not] at h
  omega

theorem readBasic_escapeChar (c : Char) : readBasic (fuel + 1) (escapeChar c ++ rest) =
    (readBasic fuel rest).map fun (t, r) => (c :: t, r) := by
  rw [escapeChar]
  split
  · next h => simp [h, readBasic, readEscape]
  split
  · next h => simp [h, readBasic, readEscape]
  split
  · next hquote hbackslash hplain => simp [readBasic, hquote, hbackslash, hplain]
  · next hplain =>
    have hcode := toNat_of_not_plain (show isPlain c = false by simpa using hplain)
    simp [readBasic, readEscape, readCode_four c.toNat hcode c.valid]

theorem readBasic_flatMap (t : List Char) (h : t.length < fuel) :
    readBasic fuel (t.flatMap escapeChar ++ '"' :: rest) = some (t, rest) := by
  induction t generalizing fuel with
  | nil =>
      obtain ⟨fuel, rfl⟩ := Nat.exists_eq_succ_of_ne_zero (Nat.ne_of_gt h)
      simp [readBasic]
  | cons c t ih =>
      obtain ⟨fuel, rfl⟩ := Nat.exists_eq_succ_of_ne_zero (Nat.ne_of_gt (Nat.zero_lt_of_lt h))
      rw [List.flatMap_cons, List.append_assoc, readBasic_escapeChar, ih (Nat.lt_of_succ_lt_succ h)]
      rfl

theorem exists_escapeChar_eq (c : Char) : ∃ d ds, escapeChar c = d :: ds ∧ d ≠ '"' := by
  rw [escapeChar]
  split
  · exact ⟨_, _, rfl, by decide⟩
  split
  · exact ⟨_, _, rfl, by decide⟩
  split
  · next hquote _ _ => exact ⟨_, _, rfl, hquote⟩
  · exact ⟨_, _, rfl, by decide⟩

theorem escapeChar_ne_nil (c : Char) : escapeChar c ≠ [] := by
  obtain ⟨d, ds, hc, -⟩ := exists_escapeChar_eq c
  rw [hc]
  exact List.cons_ne_nil d ds

theorem readText_eq_readSingle (h : cs.head? = some '"' → cs.tail.head? ≠ some '"') :
    readText ('"' :: cs) = readSingle ('"' :: cs) := by
  match cs with
  | [] => rfl
  | [b] => rfl
  | b :: c :: cs =>
      have hthree : ¬ (('"' = '"' ∨ '"' = singleQuote) ∧ '"' = b ∧ '"' = c) := by
        rintro ⟨-, rfl, rfl⟩
        exact h rfl rfl
      rw [readText, if_neg hthree]

theorem readText_writeText (text : String) (h : rest.head? ≠ some '"') :
    readText (writeText text ++ rest) = some (text.toList, rest) := by
  have hwritten : writeText text ++ rest = '"' :: (text.toList.flatMap escapeChar ++ '"' :: rest) := by
    simp [writeText]
  have hone : readText (writeText text ++ rest) = readSingle (writeText text ++ rest) := by
    rw [hwritten]
    apply readText_eq_readSingle
    cases text.toList with
    | nil => exact fun _ => h
    | cons c t =>
        obtain ⟨d, ds, hc, hd⟩ := exists_escapeChar_eq c
        simp [hc, hd]
  rw [hone, hwritten, readSingle, if_pos rfl]
  apply readBasic_flatMap
  have hlength := length_le_length_flatMap escapeChar_ne_nil text.toList
  simp only [List.length_append]
  omega

end Quoted

section Lines

variable {key text : String} {entries : List (String × String)}

structure IsBare (key : String) : Prop where
  nonempty : key.toList ≠ []
  chars : ∀ c ∈ key.toList, isKeyChar c = true

theorem readKey_of_bare (h : IsBare key) (hrest : ∀ c ∈ rest.head?, isKeyChar c = false) :
    readKey (key.toList ++ rest) = some (key, rest) := by
  have htake := takeWhile_append_of_stop h.chars hrest
  have hdrop := dropWhile_append_of_stop h.chars hrest
  have hempty : key.toList.isEmpty = false := by simpa using h.nonempty
  rw [readKey, htake, hdrop, hempty, String.ofList_toList]
  rfl

theorem readPath_of_bare (h : IsBare key) : readPath (fuel + 1) (key.toList ++ ' ' :: '=' :: rest) =
    some ([key], '=' :: rest) := by
  have hstop : ∀ c ∈ (' ' :: '=' :: rest).head?, isKeyChar c = false := by
    rintro c ⟨⟩
    rfl
  have hkey := readKey_of_bare h hstop
  have hblank : skipBlanks (' ' :: '=' :: rest) = '=' :: rest := rfl
  rw [readPath, hkey]
  simp only [hblank]
  rfl

theorem readItem_writeText (text : String) (h : rest.head? ≠ some '"') :
    readItem (fuel + 1) (writeText text ++ rest) = some (.text text, rest) := by
  have hread := readText_writeText text h
  rw [writeText, List.cons_append, List.cons_append] at hread ⊢
  rw [readItem, hread]
  · simp
  · simp
  · simp

theorem IsBare.exists_head (h : IsBare key) : ∃ c cs, key.toList = c :: cs ∧
    c ≠ ' ' ∧ c ≠ '\t' ∧ c ≠ '#' ∧ c ≠ '\n' ∧ c ≠ '\r' ∧ c ≠ '[' := by
  obtain ⟨c, cs, hcs⟩ := List.exists_cons_of_ne_nil h.nonempty
  have hc := h.chars c (hcs ▸ List.mem_cons_self)
  refine ⟨c, cs, hcs, ?_⟩
  refine ⟨?_, ?_, ?_, ?_, ?_, ?_⟩ <;> (rintro rfl; exact absurd hc (by decide))

theorem readLine_entryChars (h : IsBare key) (rest : List Char) : readLine (entryChars key text ++ rest) =
    some (.entry [key] (.text text), '\n' :: rest) := by
  have hchars : entryChars key text ++ rest =
      key.toList ++ ' ' :: '=' :: (' ' :: (writeText text ++ '\n' :: rest)) := by
    simp [entryChars]
  have hpath : ∀ fuel, readPath (fuel + 1) (entryChars key text ++ rest) =
      some ([key], '=' :: ' ' :: (writeText text ++ '\n' :: rest)) := by
    intro fuel
    rw [hchars]
    exact readPath_of_bare h
  have hitem : ∀ fuel, readItem (fuel + 1) (writeText text ++ '\n' :: rest) = some (.text text, '\n' :: rest) :=
    fun _ => readItem_writeText text (by simp)
  have hblank : skipBlanks (' ' :: (writeText text ++ '\n' :: rest)) = writeText text ++ '\n' :: rest := by
    rw [writeText]
    rfl
  obtain ⟨c, cs, hkey, -, -, -, -, -, hheader⟩ := h.exists_head
  have hcons : entryChars key text ++ rest = c :: (cs ++ ' ' :: '=' :: (' ' :: (writeText text ++ '\n' :: rest))) := by
    rw [hchars, hkey]
    rfl
  rw [hcons] at hpath ⊢
  rw [readLine, hpath]
  · simp only [hblank, hitem, Option.map_some]
  · simpa using hheader

theorem endLine_eq_none (hc : c ≠ ' ' ∧ c ≠ '\t' ∧ c ≠ '#' ∧ c ≠ '\n' ∧ c ≠ '\r') :
    endLine (c :: cs) = none := by
  obtain ⟨hspace, htab, hcomment, hbreak, hreturn⟩ := hc
  have hblank : skipBlanks (c :: cs) = c :: cs := by simp [skipBlanks, hspace, htab]
  rw [endLine, hblank]
  have hbreaks : newline? (c :: cs) = none := by
    rw [newline?]
    · simpa using hbreak
    · intro rest heq
      exact absurd (List.cons.inj heq).1 hreturn
  simp [hcomment, hbreaks]

theorem readDocument_entryChars (h : IsBare key) (rest : List Char) :
    readDocument (fuel + 1) (entryChars key text ++ rest) =
      (readDocument fuel rest).map (.entry [key] (.text text) :: ·) := by
  have hline : readLine (entryChars key text ++ rest) = some (.entry [key] (.text text), '\n' :: rest) :=
    readLine_entryChars h rest
  obtain ⟨c, cs, hkey, hspace, htab, hcomment, hbreak, hreturn, -⟩ := h.exists_head
  obtain ⟨more, hmore⟩ : ∃ more, entryChars key text ++ rest = c :: more := by simp [entryChars, hkey]
  have hblank : skipBlanks (c :: more) = c :: more := by simp [skipBlanks, hspace, htab]
  have hend : endLine ('\n' :: rest) = some rest := rfl
  rw [hmore] at hline ⊢
  rw [readDocument, hblank]
  simp only [endLine_eq_none ⟨hspace, htab, hcomment, hbreak, hreturn⟩, hline, hend]

theorem readDocument_flatMap (hbare : ∀ entry ∈ entries, IsBare entry.1) (h : entries.length < fuel) :
    readDocument fuel (entries.flatMap fun (key, text) => entryChars key text) =
      some (entries.map fun entry => .entry [entry.1] (.text entry.2)) := by
  induction entries generalizing fuel with
  | nil =>
      obtain ⟨fuel, rfl⟩ := Nat.exists_eq_succ_of_ne_zero (Nat.ne_of_gt h)
      rfl
  | cons entry entries ih =>
      obtain ⟨hentry, hrest⟩ := List.forall_mem_cons.mp hbare
      obtain ⟨fuel, rfl⟩ := Nat.exists_eq_succ_of_ne_zero (Nat.ne_of_gt (Nat.zero_lt_of_lt h))
      rw [List.flatMap_cons, readDocument_entryChars hentry, ih hrest (Nat.lt_of_succ_lt_succ h)]
      rfl

end Lines

section Lookup

variable {α : Type} {entries : List (String × α)} {key : String}

theorem lookup_cons_eq_ite (key name : String) (a : α) (entries : List (String × α)) :
    List.lookup key ((name, a) :: entries) = if key = name then some a else entries.lookup key := by
  by_cases hkey : key = name
  · simp [hkey]
  · rw [List.lookup_cons, beq_eq_false_iff_ne.mpr hkey, if_neg hkey]

theorem lookup_eq_none_iff : entries.lookup key = none ↔ key ∉ entries.map Prod.fst := by
  rw [List.lookup_eq_none_iff, List.mem_map, not_exists]
  refine forall_congr' fun entry => ?_
  rw [not_and, bne_iff_ne, ne_comm]

end Lookup

section Items

variable {entries more out : List (String × Item)} {texts : List (String × String)}

theorem sections_entries (texts : List (String × String)) :
    sections (texts.map fun entry => .entry [entry.1] (.text entry.2)) =
      (texts.map fun entry => ([entry.1], .text entry.2), []) := by
  induction texts with
  | nil => rfl
  | cons entry texts ih =>
      rw [List.map_cons, sections, ih]
      rfl

theorem defineAll_texts (hkeys : (entries.map Prod.fst ++ texts.map Prod.fst).Nodup) :
    defineAll (texts.map fun entry => ([entry.1], .text entry.2)) entries =
      some (entries ++ texts.map fun entry => (entry.1, .text entry.2)) := by
  induction texts generalizing entries with
  | nil => simp [defineAll]
  | cons entry texts ih =>
      have hfree : entries.lookup entry.1 = none := by
        rw [lookup_eq_none_iff]
        intro hmem
        exact (List.nodup_append.mp hkeys).2.2 _ hmem _ List.mem_cons_self rfl
      have hdefine : define [entry.1] (.text entry.2) entries = some (entries ++ [(entry.1, .text entry.2)]) := by
        simp [define, along, hfree]
      have hnext : ((entries ++ [(entry.1, Item.text entry.2)]).map Prod.fst ++ texts.map Prod.fst).Nodup := by
        simpa using hkeys
      have hrest := ih hnext
      rw [defineAll] at hrest ⊢
      rw [List.map_cons, List.foldlM_cons, hdefine]
      simpa using hrest

end Items

theorem read?_write {texts : List (String × String)} (hbare : ∀ entry ∈ texts, IsBare entry.1)
    (hkeys : (texts.map Prod.fst).Nodup) :
    read? (write texts) = some (texts.map fun entry => (entry.1, .text entry.2)) := by
  have hmark : dropMark (texts.flatMap fun (key, text) => entryChars key text) =
      texts.flatMap fun (key, text) => entryChars key text := by
    cases texts with
    | nil => rfl
    | cons entry texts =>
        obtain ⟨c, cs, hkey, -⟩ := (hbare entry List.mem_cons_self).exists_head
        have hc := (hbare entry List.mem_cons_self).chars c (hkey ▸ List.mem_cons_self)
        have hne : c.toNat ≠ 0xFEFF := by
          intro heq
          rw [← Char.ofNat_toNat c, heq] at hc
          exact absurd hc (by decide)
        simp [entryChars, hkey, dropMark, hne]
  have hlength : texts.length ≤ (texts.flatMap fun (key, text) => entryChars key text).length :=
    length_le_length_flatMap (fun entry => by simp [entryChars]) texts
  have hlines := readDocument_flatMap hbare (Nat.lt_succ_of_le hlength)
  have hdefined : defineAll (texts.map fun entry => ([entry.1], .text entry.2)) [] =
      some ([] ++ texts.map fun entry => (entry.1, .text entry.2)) := defineAll_texts hkeys
  rw [read?, write, String.toList_ofList, hmark, hlines, Option.bind_some, ofLines?, sections_entries]
  simpa using hdefined

section Keys

variable {entries out : List (String × Item)}

theorem of_foldlM {α β : Type} {P : β → Prop} {f : β → α → Option β} {l : List α} {start last : β}
    (hstep : ∀ b a next, f b a = some next → P b → P next) (h : l.foldlM f start = some last) (hstart : P start) :
    P last := by
  induction l generalizing start with
  | nil =>
      obtain rfl := Option.some.inj h
      exact hstart
  | cons a l ih =>
      rw [List.foldlM_cons] at h
      obtain ⟨next, hnext, hrest⟩ := Option.bind_eq_some_iff.mp h
      exact ih hrest (hstep start a next hnext hstart)

def Distinct (entries : List (String × Item)) : Prop :=
  (entries.map Prod.fst).Nodup

theorem keys_replace (key : String) (item : Item) (entries : List (String × Item)) :
    (replace key item entries).map Prod.fst = entries.map Prod.fst := by
  rw [replace, List.map_map]
  refine List.map_congr_left fun entry _ => ?_
  simp only [Function.comp_apply]
  split <;> rfl

theorem Distinct.replace (h : Distinct entries) (key : String) (item : Item) :
    Distinct (replace key item entries) := by
  rwa [Distinct, keys_replace]

theorem Distinct.append (h : Distinct entries) {key : String} (hfree : entries.lookup key = none) (item : Item) :
    Distinct (entries ++ [(key, item)]) := by
  rw [Distinct, List.map_append]
  refine List.nodup_append.mpr ⟨h, List.nodup_singleton _, ?_⟩
  rintro a ha _ hb rfl
  obtain rfl := List.mem_singleton.mp hb
  exact lookup_eq_none_iff.mp hfree ha

theorem Distinct.along {way : Opening}
    {place : String → List (String × Item) → Option (List (String × Item))}
    (hplace : ∀ key entries out, place key entries = some out → Distinct entries → Distinct out)
    {path : List String} (h : along way place path entries = some out) (hentries : Distinct entries) :
    Distinct out := by
  match path with
  | [] => cases h
  | [key] => exact hplace key entries out h hentries
  | key :: next :: path =>
      rw [Document.along] at h
      · split at h
        · next hfree =>
          obtain ⟨below, -, rfl⟩ := Option.map_eq_some_iff.mp h
          exact hentries.append hfree _
        · split at h
          · obtain ⟨below, -, rfl⟩ := Option.map_eq_some_iff.mp h
            exact hentries.replace key _
          · cases h
        · cases h
      · exact List.cons_ne_nil next path

theorem Distinct.define {path : List String} {item : Item} (h : define path item entries = some out)
    (hentries : Distinct entries) : Distinct out := by
  refine Distinct.along ?_ h hentries
  intro key entries out hplace hentries
  split at hplace
  · next hfree =>
    obtain rfl := Option.some.inj hplace
    exact hentries.append (Option.isNone_iff_eq_none.mp hfree) item
  · cases hplace

theorem Distinct.addTo {s : Section} (h : s.addTo entries = some out) (hentries : Distinct entries) :
    Distinct out := by
  refine Distinct.along ?_ h hentries
  intro key entries out hplace hentries
  split at hplace
  · next hfree =>
    obtain ⟨below, -, rfl⟩ := Option.map_eq_some_iff.mp hplace
    exact hentries.append hfree _
  · obtain ⟨below, -, rfl⟩ := Option.map_eq_some_iff.mp hplace
    exact hentries.replace key _
  · cases hplace

theorem distinct_read? {s : String} (h : read? s = some out) : Distinct out := by
  obtain ⟨lines, -, hlines⟩ := Option.bind_eq_some_iff.mp h
  obtain ⟨entries, hdefined, hsections⟩ := Option.bind_eq_some_iff.mp hlines
  refine of_foldlM (fun _ _ _ => Distinct.addTo) hsections ?_
  exact of_foldlM (fun _ _ _ => Distinct.define) hdefined List.nodup_nil

end Keys

end QueryCriteria.Config.Document
