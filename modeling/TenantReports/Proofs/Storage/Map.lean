import Mathlib.Data.List.Induction
import TenantReports.Proofs.Latest
import TenantReports.Proofs.Storage.Paths
import TenantReports.Storage.Steps

/-!
A store of files is a map from keys that is confined to its root. Where no key of some puts and
deletes lies above another, each of them succeeds, and the files are those that were put and not
deleted since, each with what was put last. What is refused or fails leaves the files alone.
-/

namespace TenantReports

open FilePath (IsUnsafe IsStorable ofKey)

namespace LocalStore

variable {store : LocalStore} {above names path : FilePath} {key content : String}

theorem isFile_iff : store.isFile path = true ↔ ∃ content, (path, content) ∈ store.files := by
  unfold isFile find?
  rw [List.lookup_isSome_iff]
  constructor
  · rintro ⟨⟨name, content⟩, hmem, hname⟩
    obtain rfl := eq_of_beq hname
    exact ⟨content, hmem⟩
  · rintro ⟨content, hmem⟩
    exact ⟨(path, content), hmem, beq_self_eq_true path⟩

theorem isDirectory_eq_false_iff : store.isDirectory path = false ↔ path ∉ store.directories := by
  simp [isDirectory]

theorem addDirectory_eq (store : LocalStore) (path : FilePath) :
    ∃ directories, store.addDirectory path = { store with directories } ∧
      ∀ directory ∈ directories, directory ∈ store.directories ∨ directory = path := by
  unfold addDirectory
  split
  · exact ⟨store.directories, rfl, fun directory h => .inl h⟩
  · exact ⟨_, rfl, fun directory h => (List.mem_append.mp h).imp_right List.mem_singleton.mp⟩

/-- Where no file is in the way, all directories are made. -/
theorem makeBelow_eq_ok (hnames : ∀ name ∈ names, FilePath.isNameTooLong name = false)
    (hfree : ∀ below, below <+: names → below ≠ [] → store.isFile (above ++ below) = false) :
    ∃ directories, store.makeBelow above names = (.ok (), { store with directories }) ∧
      ∀ directory ∈ directories,
        directory ∈ store.directories ∨ ∃ below, below <+: names ∧ directory = above ++ below := by
  induction names generalizing store above with
  | nil => exact ⟨store.directories, rfl, fun directory h => .inl h⟩
  | cons name names ih =>
      have hfirst : [name] <+: name :: names := ⟨names, rfl⟩
      have hfile : store.isFile (above ++ [name]) = false :=
        hfree [name] hfirst (List.cons_ne_nil _ _)
      obtain ⟨made, hmade, hadded⟩ := store.addDirectory_eq (above ++ [name])
      obtain ⟨directories, hbelow, hdirectories⟩ := @ih (store.addDirectory (above ++ [name]))
        (above ++ [name]) (fun other h => hnames other (List.mem_cons_of_mem _ h))
        (fun below hbelow _ => by
          rw [hmade, List.append_assoc]
          exact hfree (name :: below) (List.cons_prefix_cons.mpr ⟨rfl, hbelow⟩)
            (List.cons_ne_nil _ _))
      refine ⟨directories, ?_, fun directory h => ?_⟩
      · unfold makeBelow
        dsimp only
        rw [hnames name List.mem_cons_self, hfile, if_neg Bool.false_ne_true,
          if_neg Bool.false_ne_true, hbelow, hmade]
      · rcases hdirectories directory h with h | ⟨below, hle, rfl⟩
        · rw [hmade] at h
          exact (hadded directory h).imp_right fun heq => ⟨[name], hfirst, heq⟩
        · exact .inr ⟨name :: below, List.cons_prefix_cons.mpr ⟨rfl, hle⟩,
            List.append_assoc _ _ _⟩

/-- Where no file is on the way and no directory at its end, nothing stands in the way of
deleting. -/
theorem unlinkFault?_eq_none (hnames : ∀ name ∈ names, FilePath.isNameTooLong name = false)
    (hfree : ∀ below, below <+: names → below ≠ names → store.isFile (above ++ below) = false)
    (hend : store.isDirectory (above ++ names) = false) :
    store.unlinkFault? above names = none := by
  induction names generalizing above with
  | nil => rfl
  | cons name names ih =>
      unfold unlinkFault?
      dsimp only
      rw [hnames name List.mem_cons_self, if_neg Bool.false_ne_true]
      split
      · next hnil =>
          subst hnil
          rw [hend, if_neg Bool.false_ne_true]
      · next hmore =>
          rw [hfree [name] ⟨names, rfl⟩ fun h => hmore (List.cons.inj h).2.symm,
            if_neg Bool.false_ne_true]
          split
          · refine ih (fun other h => hnames other (List.mem_cons_of_mem _ h)) ?_ ?_
            · intro below hbelow hne
              rw [List.append_assoc]
              exact hfree (name :: below) (List.cons_prefix_cons.mpr ⟨rfl, hbelow⟩)
                fun h => hne (List.cons.inj h).2
            · rwa [List.append_assoc]
          · rfl

/-- Nothing stands in the way of a file at a path: no file above it, and no directory there. -/
structure IsClear (store : LocalStore) (path : FilePath) : Prop where
  above : ∀ above, above <+: path → above ≠ path → store.isFile above = false
  notDirectory : store.isDirectory path = false

theorem prefix_of_prefix_dropLast (hpath : path ≠ []) (h : above <+: path.dropLast) :
    above <+: path ∧ above ≠ path := by
  refine ⟨h.trans (List.dropLast_prefix path), ?_⟩
  rintro rfl
  have hlength := h.length_le
  rw [List.length_dropLast] at hlength
  have hpos := List.length_pos_iff.mpr hpath
  omega

theorem makeParents_eq_ok (hpath : path ≠ []) (hstorable : IsStorable path)
    (hclear : store.IsClear path) :
    ∃ directories, store.makeParents path = (.ok (), { store with directories }) ∧
      ∀ directory ∈ directories,
        directory ∈ store.directories ∨ directory <+: path ∧ directory ≠ path := by
  have hnames : ∀ name ∈ path.dropLast, name ∈ path := List.dropLast_subset path
  obtain ⟨directories, hmade, hdirectories⟩ := @makeBelow_eq_ok store [] path.dropLast
    (fun name h => (hstorable.1 name (hnames name h)).2)
    (fun below hbelow _ =>
      let ⟨hle, hne⟩ := prefix_of_prefix_dropLast hpath hbelow
      hclear.above below hle hne)
  refine ⟨directories, ?_, fun directory h => (hdirectories directory h).imp_right ?_⟩
  · unfold makeParents
    dsimp only
    rw [hstorable.any_hasZero hnames, hstorable.isTooLong_dropLast, if_neg Bool.false_ne_true,
      if_neg Bool.false_ne_true, hmade]
  · rintro ⟨below, hbelow, rfl⟩
    exact prefix_of_prefix_dropLast hpath hbelow

theorem write_of_isStorable (hpath : path ≠ []) (hstorable : IsStorable path)
    (hend : store.isDirectory path = false) (content : String) :
    store.write path content = .ok (store.writeAt path content) := by
  have hname : path.getLastD "" ∈ path := by
    rw [List.getLastD_eq_getLast?, List.getLast?_eq_some_getLast hpath]
    exact List.getLast_mem hpath
  obtain ⟨hzero, hshort⟩ := hstorable.1 _ hname
  unfold write
  dsimp only
  rw [hzero, hshort, hstorable.2, hend]
  rfl

theorem put_of_isClear (hsafe : ¬IsUnsafe key) (hstorable : IsStorable (ofKey key))
    (hclear : store.IsClear (ofKey key)) (content : String) :
    ∃ directories, store.put key content = (.ok (store.urlOf key),
        ({ store with directories } : LocalStore).writeAt (ofKey key) content) ∧
      ∀ directory ∈ directories,
        directory ∈ store.directories ∨ directory <+: ofKey key ∧ directory ≠ ofKey key := by
  obtain ⟨directories, hmade, hdirectories⟩ :=
    makeParents_eq_ok (FilePath.ofKey_ne_nil key) hstorable hclear
  have hend : ({ store with directories } : LocalStore).isDirectory (ofKey key) = false := by
    rw [isDirectory_eq_false_iff]
    intro hmem
    rcases hdirectories _ hmem with h | ⟨-, hne⟩
    · exact isDirectory_eq_false_iff.mp hclear.notDirectory h
    · exact hne rfl
  refine ⟨directories, ?_, hdirectories⟩
  unfold put
  rw [FilePath.ofKey?_of_not_isUnsafe hsafe]
  dsimp only
  rw [hmade]
  dsimp only
  rw [write_of_isStorable (FilePath.ofKey_ne_nil key) hstorable hend]

theorem delete_of_isClear (hsafe : ¬IsUnsafe key) (hstorable : IsStorable (ofKey key))
    (hclear : store.IsClear (ofKey key)) : store.delete key =
      (.ok (), { store with files := store.files.filter fun file => file.1 != ofKey key }) := by
  have hnames : ∀ name ∈ ofKey key, FilePath.isNameTooLong name = false :=
    fun name h => (hstorable.1 name h).2
  have hfault : store.unlinkFault? [] (ofKey key) = none :=
    unlinkFault?_eq_none hnames hclear.above hclear.notDirectory
  unfold delete
  rw [FilePath.ofKey?_of_not_isUnsafe hsafe]
  dsimp only
  unfold unlink
  rw [hstorable.any_hasZero fun _ => id, hstorable.2, if_neg Bool.false_ne_true,
    if_neg Bool.false_ne_true, hfault]

end LocalStore

namespace StoreStep

variable {steps : List StoreStep} {step : StoreStep} {store : LocalStore} {publicUrl : String}

def key : StoreStep → String
  | put key _ _ _ => key
  | delete key _ => key

/-- What a step leaves under its key. -/
def content? : StoreStep → Option String
  | put _ content _ _ => some content
  | delete _ _ => none

/-- What a step is answered by a store that is served at a URL. -/
def answer (publicUrl : String) (step : StoreStep) : Result (Option String) :=
  if IsUnsafe step.key then .error (.invalidIdentifier (.text step.key))
  else .ok (step.content?.map fun _ => publicUrl ++ "/" ++ step.key)

theorem performLocal_of_isUnsafe (h : IsUnsafe step.key) (store : LocalStore) :
    step.performLocal store = (.error (.invalidIdentifier (.text step.key)), store) := by
  cases step with
  | put key content contentType status =>
      have hkey : FilePath.ofKey? key = _ := FilePath.ofKey?_of_isUnsafe h
      unfold performLocal LocalStore.put
      dsimp only
      rw [hkey]
      rfl
  | delete key status =>
      have hkey : FilePath.ofKey? key = _ := FilePath.ofKey?_of_isUnsafe h
      unfold performLocal LocalStore.delete
      dsimp only
      rw [hkey]
      rfl

/-- A step that fails may have made directories, but it touches no file. -/
theorem files_of_performLocal_eq_error {fault : Fault}
    (h : (step.performLocal store).1 = .error fault) :
    (step.performLocal store).2.files = store.files := by
  cases step with
  | put key content contentType status =>
      unfold performLocal at h ⊢
      dsimp only at h ⊢
      rcases store.put_cases key content with ⟨fault, directories, hput⟩ |
        ⟨path, directories, -, hput⟩
      · rw [hput]
      · rw [hput] at h
        cases h
  | delete key status =>
      unfold performLocal LocalStore.delete at h ⊢
      dsimp only at h ⊢
      cases hkey : FilePath.ofKey? key with
      | error fault => rfl
      | ok path =>
          rw [hkey] at h
          dsimp only at h ⊢
          cases hunlink : store.unlink path with
          | error fault => rfl
          | ok after =>
              rw [hunlink] at h
              cases h

/-- The files after a step that succeeds. -/
def filesAfter (step : StoreStep) (files : List (FilePath × String)) : List (FilePath × String) :=
  (step.content?.map fun content => (ofKey step.key, content)).toList ++
    files.filter fun file => file.1 != ofKey step.key

theorem mem_filesAfter {files : List (FilePath × String)} {path : FilePath} {content : String} :
    (path, content) ∈ step.filesAfter files ↔
      path = ofKey step.key ∧ step.content? = some content ∨
        path ≠ ofKey step.key ∧ (path, content) ∈ files := by
  unfold filesAfter
  rw [List.mem_append, List.mem_filter, bne_iff_ne, and_comm (a := (path, content) ∈ files)]
  refine or_congr_left ?_
  cases step.content? with
  | none => simp
  | some other => simp [eq_comm]

theorem nodup_filesAfter {files : List (FilePath × String)} (h : (files.map Prod.fst).Nodup) :
    ((step.filesAfter files).map Prod.fst).Nodup := by
  have hrest : ((files.filter fun file => file.1 != ofKey step.key).map Prod.fst).Nodup :=
    h.sublist (List.filter_sublist.map Prod.fst)
  unfold filesAfter
  cases step.content? with
  | none => exact hrest
  | some content =>
      refine List.nodup_cons.mpr ⟨?_, hrest⟩
      simp

theorem performLocal_of_isClear (hsafe : ¬IsUnsafe step.key)
    (hstorable : IsStorable (ofKey step.key)) (hclear : store.IsClear (ofKey step.key)) :
    ∃ directories, step.performLocal store =
        (step.answer store.publicUrl, ⟨store.publicUrl, step.filesAfter store.files, directories⟩) ∧
      ∀ directory ∈ directories, directory ∈ store.directories ∨
        directory <+: ofKey step.key ∧ directory ≠ ofKey step.key := by
  unfold answer
  rw [if_neg hsafe]
  cases step with
  | put key content contentType status =>
      obtain ⟨directories, hput, hdirectories⟩ :=
        LocalStore.put_of_isClear hsafe hstorable hclear content
      refine ⟨directories, ?_, hdirectories⟩
      unfold performLocal
      dsimp only [StoreStep.key] at hput ⊢
      rw [hput]
      rfl
  | delete key status =>
      refine ⟨store.directories, ?_, fun directory h => .inl h⟩
      unfold performLocal
      dsimp only [StoreStep.key] at hsafe hstorable hclear ⊢
      rw [LocalStore.delete_of_isClear hsafe hstorable hclear]
      rfl

/-! Sequences of steps -/

/-- A store after some steps. -/
def afterAll (steps : List StoreStep) (store : LocalStore) : LocalStore :=
  steps.foldl (fun store step => (step.performLocal store).2) store

theorem afterAll_concat (steps : List StoreStep) (step : StoreStep) (store : LocalStore) :
    afterAll (steps ++ [step]) store = (step.performLocal (afterAll steps store)).2 := by
  unfold afterAll
  rw [List.foldl_append]
  rfl

theorem performAllLocal_concat (steps : List StoreStep) (step : StoreStep) (store : LocalStore) :
    performAllLocal (steps ++ [step]) store =
      performAllLocal steps store ++ [step.performLocal (afterAll steps store)] := by
  induction steps generalizing store with
  | nil => rfl
  | cons first steps ih =>
      exact congrArg (first.performLocal store :: ·) (ih (first.performLocal store).2)

/-- The last step for a key puts a content there. -/
def Leaves (steps : List StoreStep) (key content : String) : Prop :=
  ∃ contentType status, IsLatest (·.key = key) (put key content contentType status) steps

theorem leaves_concat {key content : String} : Leaves (steps ++ [step]) key content ↔
    step.key = key ∧ step.content? = some content ∨ step.key ≠ key ∧ Leaves steps key content := by
  have hlast : (∃ contentType status,
      step.key = key ∧ put key content contentType status = step) ↔
        step.key = key ∧ step.content? = some content := by
    cases step with
    | put => simp [StoreStep.key, content?, eq_comm]
    | delete => simp [content?]
  unfold Leaves
  simp only [isLatest_concat, exists_or, exists_and_left] at hlast ⊢
  rw [hlast]

/-- No key that is not refused lies above another. -/
def AreApart (steps : List StoreStep) : Prop :=
  ∀ step ∈ steps, ∀ other ∈ steps, ¬IsUnsafe step.key → ¬IsUnsafe other.key →
    ofKey step.key <+: ofKey other.key → ofKey step.key = ofKey other.key

instance : DecidablePred AreApart := fun steps =>
  inferInstanceAs (Decidable (∀ step ∈ steps, ∀ other ∈ steps, ¬IsUnsafe step.key →
    ¬IsUnsafe other.key → ofKey step.key <+: ofKey other.key → ofKey step.key = ofKey other.key))

/-- A store holds what some steps leave, and no directory but those above their files. -/
structure Reflects (store : LocalStore) (publicUrl : String) (steps : List StoreStep) : Prop where
  publicUrl : store.publicUrl = publicUrl
  files : ∀ path content, (path, content) ∈ store.files ↔
    ∃ key, ¬IsUnsafe key ∧ path = ofKey key ∧ Leaves steps key content
  nodup : (store.files.map Prod.fst).Nodup
  directories : ∀ directory ∈ store.directories, ∃ step ∈ steps,
    ¬IsUnsafe step.key ∧ directory <+: ofKey step.key ∧ directory ≠ ofKey step.key

theorem reflects_empty (publicUrl : String) :
    Reflects (.empty publicUrl) (withoutTrailingSlashes publicUrl) [] where
  publicUrl := rfl
  files path content := by simp [LocalStore.empty, Leaves]
  nodup := List.nodup_nil
  directories directory h := absurd h List.not_mem_nil

namespace Reflects

theorem isClear (h : Reflects store publicUrl steps) (hsafe : ¬IsUnsafe step.key)
    (hapart : AreApart (steps ++ [step])) : store.IsClear (ofKey step.key) where
  above above hle hne := by
    refine Bool.eq_false_iff.mpr fun hfile => ?_
    obtain ⟨content, hmem⟩ := LocalStore.isFile_iff.mp hfile
    obtain ⟨key, hkey, rfl, contentType, status, hlatest⟩ := (h.files above content).mp hmem
    exact hne (hapart _ (List.mem_append_left _ hlatest.mem) step List.mem_concat_self hkey hsafe
      hle)
  notDirectory := by
    rw [LocalStore.isDirectory_eq_false_iff]
    intro hmem
    obtain ⟨other, hother, hkey, hle, hne⟩ := h.directories _ hmem
    exact hne (hapart step List.mem_concat_self other (List.mem_append_left _ hother) hsafe hkey
      hle)

/-- A key that is refused changes nothing. -/
theorem concat_of_isUnsafe (h : Reflects store publicUrl steps) (hrefused : IsUnsafe step.key) :
    Reflects store publicUrl (steps ++ [step]) where
  publicUrl := h.publicUrl
  files path content := by
    rw [h.files]
    refine exists_congr fun key => and_congr_right fun hkey => and_congr_right fun _ => ?_
    have hne : step.key ≠ key := fun heq => hkey (heq ▸ hrefused)
    simp [leaves_concat, hne]
  nodup := h.nodup
  directories directory hmem :=
    let ⟨other, hother, habove⟩ := h.directories directory hmem
    ⟨other, List.mem_append_left _ hother, habove⟩

/-- One step is answered as it should be, and the store is a map afterwards. -/
theorem concat (h : Reflects store publicUrl steps) (hapart : AreApart (steps ++ [step]))
    (hstorable : ¬IsUnsafe step.key → IsStorable (ofKey step.key)) :
    (step.performLocal store).1 = step.answer publicUrl ∧
      Reflects (step.performLocal store).2 publicUrl (steps ++ [step]) := by
  by_cases hsafe : IsUnsafe step.key
  · rw [performLocal_of_isUnsafe hsafe]
    exact ⟨(if_pos hsafe).symm, h.concat_of_isUnsafe hsafe⟩
  · obtain ⟨directories, hperform, hdirectories⟩ :=
      performLocal_of_isClear hsafe (hstorable hsafe) (h.isClear hsafe hapart)
    rw [hperform]
    refine ⟨by rw [h.publicUrl], h.publicUrl, ?_, nodup_filesAfter h.nodup, ?_⟩
    · intro path content
      rw [mem_filesAfter, h.files]
      constructor
      · rintro (⟨rfl, hcontent⟩ | ⟨hne, key, hkey, rfl, hleaves⟩)
        · exact ⟨step.key, hsafe, rfl, leaves_concat.mpr (.inl ⟨rfl, hcontent⟩)⟩
        · exact ⟨key, hkey, rfl,
            leaves_concat.mpr (.inr ⟨fun heq => hne (congrArg ofKey heq.symm), hleaves⟩)⟩
      · rintro ⟨key, hkey, rfl, hleaves⟩
        rcases leaves_concat.mp hleaves with ⟨rfl, hcontent⟩ | ⟨hne, hleaves⟩
        · exact .inl ⟨rfl, hcontent⟩
        · exact .inr ⟨fun heq => hne (FilePath.ofKey_injective heq.symm), key, hkey, rfl, hleaves⟩
    · intro directory hmem
      rcases hdirectories directory hmem with hold | habove
      · obtain ⟨other, hother, habove⟩ := h.directories directory hold
        exact ⟨other, List.mem_append_left _ hother, habove⟩
      · exact ⟨step, List.mem_concat_self, hsafe, habove⟩

end Reflects

/-- All steps are answered as they should be, and the store is a map after them. -/
theorem reflects_afterAll (publicUrl : String) (steps : List StoreStep)
    (hstorable : ∀ step ∈ steps, ¬IsUnsafe step.key → IsStorable (ofKey step.key))
    (hapart : AreApart steps) :
    (performAllLocal steps (.empty publicUrl)).map Prod.fst =
        steps.map (answer (withoutTrailingSlashes publicUrl)) ∧
      Reflects (afterAll steps (.empty publicUrl)) (withoutTrailingSlashes publicUrl) steps := by
  induction steps using List.reverseRecOn with
  | nil => exact ⟨rfl, reflects_empty publicUrl⟩
  | append_singleton steps step ih =>
      have hsub : ∀ {other}, other ∈ steps → other ∈ steps ++ [step] := List.mem_append_left _
      obtain ⟨hanswers, hreflects⟩ := ih (fun other h => hstorable other (hsub h))
        fun first hfirst second hsecond => hapart first (hsub hfirst) second (hsub hsecond)
      obtain ⟨hanswer, hafter⟩ := hreflects.concat hapart (hstorable step List.mem_concat_self)
      refine ⟨?_, afterAll_concat .. ▸ hafter⟩
      rw [performAllLocal_concat, List.map_append, List.map_append, hanswers, List.map_singleton,
        List.map_singleton, hanswer]

/-- A store of files is a map from keys below its root. A key that is empty, starts at the top or
has a part that names no entry is refused; every other one leads to a path below the root, and
different ones to different paths. A step that fails leaves all files as they were. Where the file
system takes the paths and no key lies above another, every step with a key that is not refused
succeeds, and the files are those whose key was put and not deleted since, with what was put
last. -/
theorem confined_map :
    (∀ (step : StoreStep) (store : LocalStore), IsUnsafe step.key →
      step.performLocal store = (.error (.invalidIdentifier (.text step.key)), store)) ∧
    (∀ (root : FilePath) (key : String), ¬IsUnsafe key →
      FilePath.ofKey? key = .ok (ofKey key) ∧ FilePath.resolve root key = root ++ ofKey key ∧
        ofKey key ≠ [] ∧ ∀ name ∈ ofKey key, FilePath.isEntryName name = true ∧
          '/' ∉ name.toList) ∧
    (∀ (root : FilePath) (key other : String), ¬IsUnsafe key → ¬IsUnsafe other →
      FilePath.resolve root key = FilePath.resolve root other → key = other) ∧
    (∀ (step : StoreStep) (store : LocalStore) (fault : Fault),
      (step.performLocal store).1 = .error fault →
        (step.performLocal store).2.files = store.files) ∧
    ∀ (publicUrl : String) (steps : List StoreStep),
      (∀ step ∈ steps, ¬IsUnsafe step.key → IsStorable (ofKey step.key)) → AreApart steps →
        (performAllLocal steps (.empty publicUrl)).map Prod.fst =
            steps.map (answer (withoutTrailingSlashes publicUrl)) ∧
          (∀ path content, (path, content) ∈ (afterAll steps (.empty publicUrl)).files ↔
            ∃ key, ¬IsUnsafe key ∧ path = ofKey key ∧ Leaves steps key content) ∧
          ((afterAll steps (.empty publicUrl)).files.map Prod.fst).Nodup := by
  refine ⟨fun step store h => performLocal_of_isUnsafe h store, fun root key h => ?_,
    fun root key other => FilePath.resolve_inj,
    fun step store fault => files_of_performLocal_eq_error,
    fun publicUrl steps hstorable hapart => ?_⟩
  · have hnames := List.all_eq_true.mp (FilePath.not_isUnsafe_iff.mp h)
    exact ⟨FilePath.ofKey?_of_not_isUnsafe h, FilePath.resolve_of_not_isUnsafe h root,
      FilePath.ofKey_ne_nil key,
      fun name hname => ⟨hnames name hname, FilePath.slash_not_mem_of_mem_ofKey hname⟩⟩
  · obtain ⟨hanswers, hreflects⟩ := reflects_afterAll publicUrl steps hstorable hapart
    exact ⟨hanswers, hreflects.files, hreflects.nodup⟩

/-- Two files side by side, one written twice and one deleted again, beside a key that is refused
and one that was never put. -/
def twoExports : List StoreStep :=
  [.put "reports/a/1.csv" "old" "text/csv" 200, .put "reports/a/2.csv" "other" "text/csv" 200,
   .put "../a/1.csv" "outside" "text/csv" 200, .put "reports/a/1.csv" "new" "text/csv" 200,
   .delete "reports/a/2.csv" 200, .delete "reports/b/3.csv" 200]

/-- A file that stands where another needs a directory. -/
def fileInTheWay : LocalStore := ⟨"/exports", [(["reports"], "file")], []⟩

theorem confined_map_of_twoExports :
    (StoreStep.delete "reports/../a" 200).performLocal fileInTheWay =
        (.error (.invalidIdentifier (.text "reports/../a")), fileInTheWay) ∧
      FilePath.resolve ["srv", "exports"] "reports/1.csv" =
        ["srv", "exports", "reports", "1.csv"] ∧
      FilePath.resolve ["srv"] "reports/1.csv" ≠ FilePath.resolve ["srv"] "reports/2.csv" ∧
      ((put "reports/1.csv" "new" "text/csv" 200).performLocal fileInTheWay).2.files =
        fileInTheWay.files ∧
      (performAllLocal twoExports (.empty "/exports/")).map Prod.fst =
        twoExports.map (answer "/exports") ∧
      (["reports", "a", "1.csv"], "new") ∈ (afterAll twoExports (.empty "/exports/")).files := by
  obtain ⟨hrefused, hbelow, hinj, hfailed, hmap⟩ := confined_map
  obtain ⟨hanswers, hfiles, -⟩ :=
    hmap "/exports/" twoExports (by decide +kernel) (by decide +kernel)
  refine ⟨hrefused (.delete "reports/../a" 200) fileInTheWay (by decide +kernel), ?_, ?_, ?_,
    hanswers, ?_⟩
  · exact (hbelow ["srv", "exports"] "reports/1.csv" (by decide +kernel)).2.1.trans (by decide)
  · exact mt (hinj ["srv"] "reports/1.csv" "reports/2.csv" (by decide +kernel) (by decide +kernel))
      (by decide)
  · exact hfailed _ _ (.file .fileExists) rfl
  · exact (hfiles _ _).mpr ⟨"reports/a/1.csv", by decide +kernel, by decide, "text/csv", 200,
      rfl, twoExports.take 3, twoExports.drop 4, rfl, by decide +kernel⟩

end StoreStep

end TenantReports
