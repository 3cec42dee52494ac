import Mathlib.Data.List.Basic
import TenantReports.Proofs.Uuid
import TenantReports.Report.Runs
import TenantReports.Storage.Local

/-!
What a put does to a store: the file is found under its key, and no other file is touched. The
keys of export files are paths below the root, and no two runs have a key in common.
-/

namespace TenantReports

namespace LocalStore

theorem addDirectory_frame (store : LocalStore) (path : FilePath) :
    ∃ directories, store.addDirectory path = { store with directories } := by
  unfold addDirectory
  split
  · exact ⟨_, rfl⟩
  · exact ⟨_, rfl⟩

theorem makeBelow_frame (store : LocalStore) (above names : FilePath) :
    ∃ directories, (store.makeBelow above names).2 = { store with directories } := by
  induction names generalizing store above with
  | nil => exact ⟨_, rfl⟩
  | cons name names ih =>
      unfold makeBelow
      dsimp only
      split
      · exact ⟨_, rfl⟩
      · split
        · exact ⟨_, rfl⟩
        · obtain ⟨made, hmade⟩ := store.addDirectory_frame (above ++ [name])
          obtain ⟨directories, hbelow⟩ := ih (store.addDirectory (above ++ [name])) _
          refine ⟨directories, hbelow.trans ?_⟩
          rw [hmade]

/-- Directories that are made leave the files alone. -/
theorem makeParents_frame (store : LocalStore) (path : FilePath) :
    ∃ directories, (store.makeParents path).2 = { store with directories } := by
  unfold makeParents
  dsimp only
  split
  · exact ⟨_, rfl⟩
  · split
    · exact ⟨_, rfl⟩
    · exact makeBelow_frame store [] _

theorem write_eq_ok {store written : LocalStore} {path : FilePath} {content : String}
    (h : store.write path content = .ok written) : written = store.writeAt path content := by
  unfold write at h
  dsimp only at h
  split at h
  · cases h
  · split at h
    · cases h
    · split at h
      · cases h
      · exact (Except.ok.inj h).symm

theorem find?_writeAt (store : LocalStore) (path : FilePath) (content : String) :
    (store.writeAt path content).find? path = some content := by
  unfold find? writeAt
  simp

theorem find?_writeAt_of_ne (store : LocalStore) {path other : FilePath} (h : other ≠ path)
    (content : String) : (store.writeAt path content).find? other = store.find? other := by
  have hfilter : ∀ files : List (FilePath × String),
      (files.filter fun file => file.1 != path).lookup other = files.lookup other := by
    intro files
    induction files with
    | nil => rfl
    | cons file files ih =>
        obtain ⟨name, text⟩ := file
        by_cases hname : name = path
        · subst hname
          have hother : (other == name) = false := beq_false_of_ne h
          rw [List.filter_cons_of_neg (by simp), ih, List.lookup_cons, hother]
        · rw [List.filter_cons_of_pos (by simp [hname]), List.lookup_cons, List.lookup_cons, ih]
  unfold find? writeAt
  dsimp only
  rw [List.lookup_cons, beq_false_of_ne h]
  exact hfilter store.files

/-- A put fails and leaves at most directories, or it writes the one file of its key. -/
theorem put_cases (store : LocalStore) (key content : String) :
    (∃ fault directories, store.put key content = (.error fault, { store with directories })) ∨
    ∃ path directories, FilePath.ofKey? key = .ok path ∧ store.put key content =
      (.ok (store.urlOf key), ({ store with directories } : LocalStore).writeAt path content) := by
  unfold put
  cases FilePath.ofKey? key with
  | error fault => exact .inl ⟨fault, store.directories, rfl⟩
  | ok path =>
      obtain ⟨directories, hframe⟩ := store.makeParents_frame path
      dsimp only
      rcases hmade : store.makeParents path with ⟨outcome, made⟩
      rw [hmade] at hframe
      obtain rfl : made = { store with directories } := hframe
      cases outcome with
      | error fault => exact .inl ⟨_, directories, rfl⟩
      | ok =>
          dsimp only
          cases hwritten : ({ store with directories } : LocalStore).write path content with
          | error fault => exact .inl ⟨_, directories, rfl⟩
          | ok written =>
              rw [write_eq_ok hwritten]
              exact .inr ⟨path, directories, rfl, rfl⟩

end LocalStore

theorem FilePath.ofKey_eq_of_ok {key : String} {path : FilePath} (h : ofKey? key = .ok path) :
    ofKey key = path := by
  unfold ofKey? at h
  dsimp only at h
  split at h
  · exact Except.ok.inj h
  · cases h

namespace LocalStore

/-- A file that was put into the store is found there, and the URL is that of its key. -/
theorem put_eq_ok {store : LocalStore} {key content url : String}
    (h : (store.put key content).1 = .ok url) :
    (store.put key content).2.find? (FilePath.ofKey key) = some content ∧
      url = (store.put key content).2.urlOf key := by
  rcases store.put_cases key content with ⟨fault, directories, hput⟩ |
    ⟨path, directories, hpath, hput⟩
  · rw [hput] at h
    cases h
  · rw [hput] at h ⊢
    rw [FilePath.ofKey_eq_of_ok hpath]
    exact ⟨find?_writeAt _ path content, (Except.ok.inj h).symm⟩

end LocalStore

/-! Keys -/

namespace Text

variable {separator : Char} {part rest cs : List Char}

theorem split_of_not_mem (h : separator ∉ cs) : split separator cs = [cs] := by
  induction cs with
  | nil => rfl
  | cons c cs ih =>
      obtain ⟨hc, hcs⟩ := not_or.mp (mt List.mem_cons.mpr h)
      rw [split, if_neg (Ne.symm hc), ih hcs]

theorem split_append (h : separator ∉ part) :
    split separator (part ++ separator :: rest) = part :: split separator rest := by
  induction part with
  | nil =>
      rw [List.nil_append, split, if_pos rfl]
  | cons c part ih =>
      obtain ⟨hc, hpart⟩ := not_or.mp (mt List.mem_cons.mpr h)
      rw [List.cons_append, split, if_neg (Ne.symm hc), ih hpart]

theorem split_ne_nil (separator : Char) (cs : List Char) : split separator cs ≠ [] := by
  cases cs with
  | nil => exact List.cons_ne_nil _ _
  | cons c cs =>
      unfold split
      split
      · exact List.cons_ne_nil _ _
      · split
        · exact List.cons_ne_nil _ _
        · exact List.cons_ne_nil _ _

/-- The parts between separators make up the text again. -/
theorem intercalate_split (separator : Char) (cs : List Char) :
    [separator].intercalate (split separator cs) = cs := by
  induction cs with
  | nil => rfl
  | cons c cs ih =>
      unfold split
      cases hparts : split separator cs with
      | nil => exact absurd hparts (split_ne_nil separator cs)
      | cons part parts =>
          rw [hparts] at ih
          split
          · next heq =>
              rw [List.intercalate_cons_cons, ih, heq]
              rfl
          · cases parts with
            | nil =>
                rw [List.intercalate_singleton] at ih ⊢
                rw [ih]
            | cons other parts =>
                rw [List.intercalate_cons_cons] at ih ⊢
                rw [← ih]
                rfl

/-- The part before the first separator is told from what stands behind it. -/
theorem append_separator_inj {part' rest' : List Char} (h : separator ∉ part)
    (h' : separator ∉ part') (heq : part ++ separator :: rest = part' ++ separator :: rest') :
    part = part' ∧ rest = rest' := by
  have hsplit := congrArg (split separator) heq
  rw [split_append h, split_append h'] at hsplit
  obtain rfl := (List.cons.inj hsplit).1
  exact ⟨rfl, (List.cons.inj (List.append_cancel_left heq)).2⟩

end Text

/-- Different keys mean different paths. -/
theorem FilePath.ofKey_injective : Function.Injective FilePath.ofKey := by
  intro a b h
  have hparts := List.map_injective_iff.mpr (fun _ _ => String.ofList_injective) h
  have hchars := congrArg [('/' : Char)].intercalate hparts
  rw [Text.intercalate_split, Text.intercalate_split] at hchars
  exact String.toList_inj.mp hchars

namespace Runs

variable {tenant execution : Uuid} {extension : String}

theorem slash_not_mem_toText (id : Uuid) : '/' ∉ id.toText.toList := by
  unfold Uuid.toText
  rw [String.toList_ofList]
  exact Uuid.not_mem_toChars (by decide) (by decide) id

theorem dot_not_mem_toText (id : Uuid) : '.' ∉ id.toText.toList := by
  unfold Uuid.toText
  rw [String.toList_ofList]
  exact Uuid.not_mem_toChars (by decide) (by decide) id

theorem toList_exportKey (tenant execution : Uuid) (extension : String) :
    (exportKey tenant execution extension).toList =
      "reports".toList ++ '/' :: (tenant.toText.toList ++
        '/' :: (execution.toText.toList ++ '.' :: extension.toList)) := by
  unfold exportKey
  simp

/-- A key tells the tenant, the run and the extension. -/
theorem exportKey_inj {tenant' execution' : Uuid} {extension' : String}
    (h : exportKey tenant execution extension = exportKey tenant' execution' extension') :
    tenant = tenant' ∧ execution = execution' ∧ extension = extension' := by
  have hchars := congrArg String.toList h
  rw [toList_exportKey, toList_exportKey, List.append_right_inj, List.cons_inj_right] at hchars
  obtain ⟨htenant, hrest⟩ := Text.append_separator_inj (slash_not_mem_toText tenant)
    (slash_not_mem_toText tenant') hchars
  obtain ⟨hexecution, hextension⟩ := Text.append_separator_inj (dot_not_mem_toText execution)
    (dot_not_mem_toText execution') hrest
  exact ⟨Uuid.toText_injective (String.toList_inj.mp htenant),
    Uuid.toText_injective (String.toList_inj.mp hexecution), String.toList_inj.mp hextension⟩

/-- The path of a file of a run: a directory for the tenant below the one for reports. -/
def exportPath (tenant execution : Uuid) (extension : String) : FilePath :=
  ["reports", tenant.toText, execution.toText ++ "." ++ extension]

theorem ofKey_exportKey (tenant execution : Uuid) (h : '/' ∉ extension.toList) :
    FilePath.ofKey (exportKey tenant execution extension) =
      exportPath tenant execution extension := by
  have hname : '/' ∉ (execution.toText ++ "." ++ extension).toList := by
    simp [slash_not_mem_toText, h]
  unfold FilePath.ofKey
  rw [toList_exportKey, Text.split_append (by decide), Text.split_append (slash_not_mem_toText _)]
  have hlast : execution.toText.toList ++ '.' :: extension.toList =
      (execution.toText ++ "." ++ extension).toList := by
    simp
  rw [hlast, Text.split_of_not_mem hname]
  unfold exportPath
  simp only [List.map_cons, List.map_nil, String.ofList_toList]

theorem isEntryName_of_hyphen {name : String} (h : '-' ∈ name.toList) :
    FilePath.isEntryName name = true := by
  have hne : ∀ special : String, '-' ∉ special.toList → name ≠ special := by
    rintro special hspecial rfl
    exact hspecial h
  unfold FilePath.isEntryName
  simp [hne "" (by decide), hne "." (by decide), hne ".." (by decide)]

theorem isEntryName_toText (id : Uuid) (suffix : String) :
    FilePath.isEntryName (id.toText ++ suffix) = true := by
  refine isEntryName_of_hyphen ?_
  unfold Uuid.toText Uuid.toChars
  simp

/-- The keys of export files pass the check of keys. -/
theorem ofKey?_exportKey (tenant execution : Uuid) (h : '/' ∉ extension.toList) :
    FilePath.ofKey? (exportKey tenant execution extension) =
      .ok (exportPath tenant execution extension) := by
  have htenant : FilePath.isEntryName tenant.toText = true := by
    simpa using isEntryName_toText tenant ""
  have hfile : FilePath.isEntryName (execution.toText ++ "." ++ extension) = true := by
    rw [String.append_assoc]
    exact isEntryName_toText execution _
  have hpassed : (exportPath tenant execution extension).all FilePath.isEntryName = true := by
    simp only [exportPath, List.all_cons, List.all_nil, htenant, hfile, Bool.and_true]
    decide
  unfold FilePath.ofKey?
  rw [ofKey_exportKey tenant execution h]
  exact if_pos hpassed

end Runs

end TenantReports
