import Log73.RadioIo.VoiceAssets

/-!
The paths of a validated configuration against the asset cache of the same tree. Validation
resolves a path, links and all; the cache has the files that the walk comes to, each under the one
spelling that the walk makes. The two agree on a path that is spelled like that and passes no link.
-/

namespace Log73.RadioIo

open Checks

/-! ### Validated paths -/

theorem checkComponents_eq_ok {seen seen' : Bool} {components : List PathComponent}
    (h : checkComponents seen components = .ok seen') : .parentDir ∉ components := by
  induction components generalizing seen with
  | nil => exact List.not_mem_nil
  | cons component components ih =>
      cases component with
      | normal name =>
          rintro (_ | _)
          exact ih h ‹_›
      | rootDir | curDir | parentDir => cases h

theorem validateVoiceFilePath_eq_ok {path : String} (h : validateVoiceFilePath path = .ok ()) :
    isAbsolute (trim path) = false ∧ ".." ∉ pathParts (trim path) := by
  obtain ⟨-, h⟩ := andThen_eq_ok.mp h
  obtain ⟨hrelative, h⟩ := andThen_eq_ok.mp h
  obtain ⟨seen, hcomponents, -⟩ := bind_eq_ok.mp h
  refine ⟨Bool.eq_false_iff.mpr (failIf_eq_ok.mp hrelative), fun hmem => ?_⟩
  refine checkComponents_eq_ok hcomponents (List.mem_append_right _ ?_)
  exact List.mem_filterMap.mpr ⟨"..", hmem, by decide⟩

theorem trim_trim (s : String) : trim (trim s) = trim s := by
  rw [trim, trim, String.toList_ofList, trimChars_trimChars]

theorem normalizedVoiceAssetPath_trim (path : String) :
    normalizedVoiceAssetPath (trim path) = normalizedVoiceAssetPath path := by
  rw [normalizedVoiceAssetPath, normalizedVoiceAssetPath, validateVoiceFilePath,
    validateVoiceFilePath, trim_trim]

/-- A path whose parts are names, as the walk makes them. -/
def PlainlySpelled (path : String) : Prop := ∀ part ∈ pathParts path, part ≠ "" ∧ part ≠ "."

def pathNames (path : String) : List OsName := (pathParts path).map .text

theorem displayPlace_pathNames [OsTexts] (path : String) :
    displayPlace (pathNames path) = path := by
  have hnames : (pathNames path).map OsName.lossy = pathParts path := by
    rw [pathNames, List.map_map]
    exact List.map_id _
  rw [displayPlace, hnames, joinWith_pathParts]

theorem map_pathStep {path : String} (hspelled : PlainlySpelled path)
    (hparent : ".." ∉ pathParts path) :
    (pathParts path).map pathStep = (pathNames path).map .name := by
  rw [pathNames, List.map_map]
  refine List.map_congr_left fun part hmem => ?_
  obtain ⟨hempty, hdot⟩ := hspelled part hmem
  have hup : part ≠ ".." := fun heq => hparent (heq ▸ hmem)
  rw [pathStep, if_neg (not_or.mpr ⟨hempty, hdot⟩), if_neg hup]
  rfl

section Validation

variable [OsTexts] {fs : FileSystem} {voicekeyerDir path : String}

theorem existingVoicekeyerFilePath_eq_ok {place : List OsName}
    (h : existingVoicekeyerFilePath fs voicekeyerDir path = .ok place) :
    validateVoiceFilePath path = .ok () ∧
    (∃ root, fs.canonicalize voicekeyerDir = some root) ∧
    fs.canonicalize (joinPath voicekeyerDir (trim path)) = some place ∧
    ∃ content, fs.read place = some content := by
  obtain ⟨joined, hjoined, h⟩ := bind_eq_ok.mp h
  obtain ⟨hvalid, hjoined⟩ := andThen_eq_ok.mp hjoined
  have hjoined : joinPath voicekeyerDir (trim path) = joined := Except.ok.inj hjoined
  subst hjoined
  obtain ⟨hfile, h⟩ := andThen_eq_ok.mp h
  obtain ⟨root, hroot, h⟩ := bind_eq_ok.mp h
  obtain ⟨place', hplace, h⟩ := bind_eq_ok.mp h
  obtain ⟨-, h⟩ := andThen_eq_ok.mp h
  cases h
  have hplace := okOr_eq_ok.mp hplace
  refine ⟨hvalid, ⟨root, okOr_eq_ok.mp hroot⟩, hplace, ?_⟩
  have hread := failIf_eq_ok.mp hfile
  rw [Bool.not_eq_false, FileSystem.isFile, hplace, Option.bind_some] at hread
  exact Option.isSome_iff_exists.mp hread

omit [OsTexts] in
theorem canonicalize_eq_some {root : List OsName} (h : fs.canonicalize voicekeyerDir = some root) :
    voicekeyerDir ≠ "" ∧ ∃ left,
      fs.tree.resolve maxLinks fs.workingDirectory (pathSteps voicekeyerDir) =
        some (left, root) := by
  rw [FileSystem.canonicalize] at h
  split at h
  · cases h
  · next hempty =>
      obtain ⟨⟨left, place⟩, hresolve, hplace⟩ := Option.map_eq_some_iff.mp h
      cases hplace
      exact ⟨hempty, left, hresolve⟩

/-- No link stands on the way of a path from a place. -/
def LinkFree (fs : FileSystem) (root : List OsName) (path : String) : Prop :=
  ∀ front, front <+: pathNames path → ∀ target, fs.tree.lookup (root ++ front) ≠ some (.link target)

/-- A path without detours that is validated is the way to a file. -/
theorem place_of_existing {root place : List OsName}
    (hroot : fs.canonicalize voicekeyerDir = some root) (hspelled : PlainlySpelled (trim path))
    (hfree : LinkFree fs root (trim path))
    (h : existingVoicekeyerFilePath fs voicekeyerDir path = .ok place) :
    place = root ++ pathNames (trim path) := by
  obtain ⟨hvalid, -, hplace, -⟩ := existingVoicekeyerFilePath_eq_ok h
  obtain ⟨hrelative, hparent⟩ := validateVoiceFilePath_eq_ok hvalid
  obtain ⟨hdirectory, left, hresolve⟩ := canonicalize_eq_some hroot
  obtain ⟨-, left', hjoined⟩ := canonicalize_eq_some hplace
  rw [resolve_join hdirectory hrelative hresolve, map_pathStep hspelled hparent] at hjoined
  exact (Prod.mk.inj (FileTree.place_of_resolve hfree hjoined)).2

theorem validateFiles_eq_ok {entries : List VoiceMessageEntry}
    (h : validateFiles fs voicekeyerDir entries = .ok ()) {entry : VoiceMessageEntry}
    (hmem : entry ∈ entries) (hpath : entry.filePath = some path) :
    validateFile fs voicekeyerDir path = .ok () := by
  induction entries with
  | nil => cases hmem
  | cons first entries ih =>
      rw [validateFiles] at h
      split at h
      · cases h
      · next hnot =>
          rcases List.mem_cons.mp hmem with rfl | hmem
          · cases hfile : validateFile fs voicekeyerDir path with
            | ok _ => rfl
            | error error =>
                exact absurd (by rw [hpath, Option.map_some, hfile]) (hnot error)
          · exact ih h hmem

end Validation

/-! ### The walk -/

section Walk

variable [OsTexts] {fs : FileSystem} {root : List OsName}

/-- An asset that is cached stays under its key. -/
def Keeps (cache cache' : VoiceAssets) : Prop :=
  ∀ (key : String) (bytes : List UInt8), cache.assets[key]? = some bytes →
    cache'.assets[key]? = some bytes

omit [OsTexts] in
theorem Keeps.trans {cache cache' cache'' : VoiceAssets} (h : Keeps cache cache')
    (h' : Keeps cache' cache'') : Keeps cache cache'' :=
  fun key bytes hkey => h' key bytes (h key bytes hkey)

/-- What a file that is indexed puts into the cache. -/
theorem indexFile_eq_ok {path : List OsName} {cache cache' : VoiceAssets}
    (h : indexFile fs root path cache = .ok cache') :
    ∃ canonicalPath key bytes, fs.canonicalizePlace path = some canonicalPath ∧
      normalizedVoiceAssetPath (displayPlace (canonicalPath.drop root.length)) = .ok key ∧
      fs.read canonicalPath = some bytes ∧ cache.assets[key]? = none ∧
      cache'.assets = cache.assets.insert key bytes := by
  obtain ⟨canonicalPath, hcanonical, h⟩ := bind_eq_ok.mp h
  obtain ⟨-, h⟩ := andThen_eq_ok.mp h
  obtain ⟨key, hkey, h⟩ := bind_eq_ok.mp h
  obtain ⟨bytes, hbytes, h⟩ := bind_eq_ok.mp h
  obtain ⟨-, h⟩ := andThen_eq_ok.mp h
  obtain ⟨-, h⟩ := andThen_eq_ok.mp h
  obtain ⟨-, h⟩ := andThen_eq_ok.mp h
  obtain ⟨hnew, h⟩ := andThen_eq_ok.mp h
  cases h
  refine ⟨canonicalPath, key, bytes, okOr_eq_ok.mp hcanonical, hkey, okOr_eq_ok.mp hbytes, ?_, rfl⟩
  exact Option.not_isSome_iff_eq_none.mp (failIf_eq_ok.mp hnew)

theorem indexFile_keeps {path : List OsName} {cache cache' : VoiceAssets}
    (h : indexFile fs root path cache = .ok cache') : Keeps cache cache' := by
  obtain ⟨_, key, bytes, -, -, -, hnew, hassets⟩ := indexFile_eq_ok h
  intro other held hheld
  have hne : key ≠ other := by
    rintro rfl
    rw [hnew] at hheld
    cases hheld
  rw [hassets, Std.ExtTreeMap.getElem?_insert, if_neg (by simpa using hne)]
  exact hheld

/-- The turns of the loop over a directory. -/
theorem indexVoiceAssets_keeps {entries : List (OsName × FileNode)}
    (hentries : ∀ entry ∈ entries, ∀ path cache cache',
      indexEntry fs root path entry.2 cache = .ok cache' → Keeps cache cache')
    {directory : List OsName} {cache cache' : VoiceAssets}
    (h : indexVoiceAssets fs root directory entries cache = .ok cache') : Keeps cache cache' := by
  induction entries generalizing cache with
  | nil =>
      rw [indexVoiceAssets] at h
      cases h
      exact fun _ _ hheld => hheld
  | cons entry entries ih =>
      obtain ⟨name, node⟩ := entry
      rw [indexVoiceAssets] at h
      obtain ⟨cache₁, hentry, h⟩ := bind_eq_ok.mp h
      exact (hentries (name, node) List.mem_cons_self _ _ _ hentry).trans
        (ih (fun other hmem => hentries other (List.mem_cons_of_mem _ hmem)) h)

theorem indexEntry_keeps (node : FileNode) (path : List OsName) (cache cache' : VoiceAssets)
    (h : indexEntry fs root path node cache = .ok cache') : Keeps cache cache' := by
  induction node using FileTree.induct generalizing path cache cache' with
  | hfile content =>
      rw [indexEntry] at h
      exact indexFile_keeps h
  | hdirectory entries ih =>
      rw [indexEntry] at h
      exact indexVoiceAssets_keeps ih h
  | hlink target =>
      rw [indexEntry] at h
      cases h
      exact fun _ _ hheld => hheld
  | hother =>
      rw [indexEntry] at h
      cases h
      exact fun _ _ hheld => hheld

/-- An entry of a directory has its turn, and what it puts into the cache stays there. -/
theorem indexVoiceAssets_of_mem {entries : List (OsName × FileNode)} {name : OsName}
    {node : FileNode} (hmem : (name, node) ∈ entries) {directory : List OsName}
    {cache cache' : VoiceAssets}
    (h : indexVoiceAssets fs root directory entries cache = .ok cache') :
    ∃ before after, indexEntry fs root (directory ++ [name]) node before = .ok after ∧
      Keeps after cache' := by
  induction entries generalizing cache with
  | nil => cases hmem
  | cons first entries ih =>
      obtain ⟨name', node'⟩ := first
      rw [indexVoiceAssets] at h
      obtain ⟨cache₁, hfirst, hrest⟩ := bind_eq_ok.mp h
      rcases List.mem_cons.mp hmem with heq | hmem
      · cases heq
        exact ⟨cache, cache₁, hfirst,
          indexVoiceAssets_keeps (fun entry _ => indexEntry_keeps entry.2) hrest⟩
      · exact ih hmem hrest

/-- A file that the walk comes to is cached under its path. -/
theorem cached_of_indexEntry {path names : List OsName} {node : FileNode} {content : List UInt8}
    {key : String} (hnode : node.lookup names = some (.file content))
    (hplace : fs.tree.lookup (path ++ names) = some (.file content))
    (hkey : normalizedVoiceAssetPath (displayPlace ((path ++ names).drop root.length)) = .ok key)
    {cache cache' : VoiceAssets} (h : indexEntry fs root path node cache = .ok cache') :
    cache'.assets[key]? = some content := by
  induction names generalizing path node cache cache' with
  | nil =>
      cases hnode
      rw [List.append_nil] at hplace hkey
      rw [indexEntry] at h
      obtain ⟨canonicalPath, key', bytes, hcanonical, hkey', hbytes, -, hassets⟩ :=
        indexFile_eq_ok h
      rw [fs.canonicalizePlace_eq hplace] at hcanonical
      cases hcanonical
      rw [hkey] at hkey'
      cases hkey'
      rw [fs.read_eq_some.mpr hplace] at hbytes
      cases hbytes
      rw [hassets, Std.ExtTreeMap.getElem?_insert_self]
  | cons name names ih =>
      cases node with
      | directory entries =>
          obtain ⟨child, hchild, hnode⟩ := Option.bind_eq_some_iff.mp hnode
          rw [indexEntry] at h
          obtain ⟨before, after, hentry, hkeeps⟩ :=
            indexVoiceAssets_of_mem (FileTree.mem_of_childNamed hchild) h
          rw [List.append_cons] at hplace hkey
          exact hkeeps key content (ih hnode hplace hkey hentry)
      | file _ | link _ | other => cases hnode

end Walk

section Playback

variable [Platform] [OsTexts] {fs : FileSystem} {voicekeyerDir config : String}

/-- A load that succeeds caches the file that a validated path leads to, if the path is spelled as
the walk spells it and passes no link. -/
theorem cachedAsset_of_validated {labels : VoiceLabels} {assets : KeyMap (List UInt8)}
    (hvalid : validateWithVoicekeyerDir fs config voicekeyerDir = .ok labels)
    (hload : loadVoiceAssets fs voicekeyerDir = .ok assets) {entry : VoiceMessageEntry}
    (hentry : entry ∈ entries config) {path : String} (hpath : entry.filePath = some path)
    (htemplate : filePathHasTemplate path = false) (hspelled : PlainlySpelled (trim path))
    (hfree : ∀ root, fs.canonicalize voicekeyerDir = some root → LinkFree fs root (trim path)) :
    ∃ place content, existingVoicekeyerFilePath fs voicekeyerDir path = .ok place ∧
      fs.read place = some content ∧ cachedAsset assets path = .ok content := by
  obtain ⟨_, -, hvalid⟩ := bind_eq_ok.mp hvalid
  have hfiles := (andThen_eq_ok.mp hvalid).1
  have hfile := validateFiles_eq_ok hfiles hentry hpath
  rw [validateFile, htemplate, if_neg Bool.false_ne_true] at hfile
  obtain ⟨place, hexisting, -⟩ := map_eq_ok.mp hfile
  obtain ⟨hpathValid, -, -, content, hcontent⟩ := existingVoicekeyerFilePath_eq_ok hexisting
  obtain ⟨root, hroot, hload⟩ := bind_eq_ok.mp hload
  have hroot := okOr_eq_ok.mp hroot
  obtain ⟨rootEntries, hread, hload⟩ := bind_eq_ok.mp hload
  obtain ⟨cache, hindex, hload⟩ := bind_eq_ok.mp hload
  cases hload
  have hplace := place_of_existing hroot hspelled (hfree root hroot) hexisting
  have hlookup := fs.read_eq_some.mp hcontent
  obtain ⟨key, hkey⟩ : ∃ key, normalizedVoiceAssetPath path = .ok key :=
    ⟨_, andThen_eq_ok.mpr ⟨hpathValid, rfl⟩⟩
  have hdirectory : fs.tree.lookup root = some (.directory rootEntries) := by
    have hread := okOr_eq_ok.mp hread
    rw [FileSystem.readDir] at hread
    split at hread
    · next heq =>
        cases hread
        exact heq
    · cases hread
  have hnode : (FileTree.directory rootEntries : FileNode).lookup (pathNames (trim path)) =
      some (.file content) := by
    rw [hplace, FileTree.lookup_append, hdirectory, Option.bind_some] at hlookup
    exact hlookup
  have hcached : cache.assets[key]? = some content := by
    have hspelling : normalizedVoiceAssetPath
        (displayPlace ((root ++ pathNames (trim path)).drop root.length)) = .ok key := by
      rw [List.drop_left, displayPlace_pathNames, normalizedVoiceAssetPath_trim]
      exact hkey
    have hentries : indexEntry fs root root (.directory rootEntries) {} = .ok cache := by
      rw [indexEntry]
      exact hindex
    exact cached_of_indexEntry hnode (hplace ▸ hlookup) hspelling hentries
  exact ⟨place, content, hexisting, hcontent, bind_eq_ok.mpr ⟨key, hkey, okOr_eq_ok.mpr hcached⟩⟩

end Playback

/-! ### Links and other files -/

/-- A system that says nothing more than that it failed. -/
@[reducible] def plainTexts : OsTexts where
  lossy _ := ""
  failure _ := ""

attribute [local instance] asciiPlatform plainTexts

def voiceFiles (entries : List (OsName × FileNode)) : FileSystem where
  tree := .directory [(.text "voicekeyer", .directory entries)]
  workingDirectory := []
  working := ⟨_, rfl⟩

def queryConfig : String := "# RUN Messages\nF1 CQ,cq.wav\n# S&P Messages\nF1 QRL,qrl.wav"

def queryLabels : VoiceLabels where
  run := [{ key := "F1", label := "CQ" }]
  searchAndPounce := [{ key := "F1", label := "QRL" }]

def queryEntry : VoiceMessageEntry where
  mode := "run"
  key := "F1"
  label := "CQ"
  filePath := some "cq.wav"
  action := none

theorem mem_entries_query : queryEntry ∈ entries queryConfig := by decide +kernel

def twoFiles : List (OsName × FileNode) :=
  [(.text "cq.wav", .file [1]), (.text "qrl.wav", .file [2])]

theorem cachedAsset_of_validated_query :
    ∃ labels assets place content,
      validateWithVoicekeyerDir (voiceFiles twoFiles) queryConfig "/voicekeyer" = .ok labels ∧
      loadVoiceAssets (voiceFiles twoFiles) "/voicekeyer" = .ok assets ∧
      existingVoicekeyerFilePath (voiceFiles twoFiles) "/voicekeyer" "cq.wav" = .ok place ∧
      (voiceFiles twoFiles).read place = some content ∧
        cachedAsset assets "cq.wav" = .ok content := by
  have hload : ((loadVoiceAssets (voiceFiles twoFiles) "/voicekeyer").toOption).isSome = true := by
    decide +kernel
  cases hassets : loadVoiceAssets (voiceFiles twoFiles) "/voicekeyer" with
  | error message =>
      rw [hassets] at hload
      cases hload
  | ok assets =>
      have hvalid : validateWithVoicekeyerDir (voiceFiles twoFiles) queryConfig "/voicekeyer" =
          .ok queryLabels := by decide +kernel
      have hroot : (voiceFiles twoFiles).canonicalize "/voicekeyer" =
          some [.text "voicekeyer"] := by
        decide +kernel
      have hspelled : PlainlySpelled (trim "cq.wav") := by
        unfold PlainlySpelled
        decide +kernel
      have hfree : ∀ root, (voiceFiles twoFiles).canonicalize "/voicekeyer" = some root →
          LinkFree (voiceFiles twoFiles) root (trim "cq.wav") := by
        intro root h front hfront target hlink
        have hnames : pathNames (trim "cq.wav") = [.text "cq.wav"] := by decide +kernel
        rw [hroot] at h
        cases h
        rw [hnames, List.prefix_cons_iff] at hfront
        rcases hfront with rfl | ⟨rest, rfl, hrest⟩
        · cases hlink
        · rw [List.prefix_nil.mp hrest] at hlink
          cases hlink
      obtain ⟨place, content, hplace, hcontent, hcached⟩ := cachedAsset_of_validated hvalid hassets
        mem_entries_query rfl (by decide +kernel) hspelled hfree
      exact ⟨queryLabels, assets, place, content, hvalid, rfl, hplace, hcontent, hcached⟩

/-- One of the files is a link to the other. -/
def linkedFiles : List (OsName × FileNode) :=
  [(.text "qrl.wav", .file [1]), (.text "cq.wav", .link [.name (.text "qrl.wav")])]

/-- A file that is no voice asset stands beside the two. -/
def mixedFiles : List (OsName × FileNode) := (.text "notes.txt", .file [3]) :: twoFiles

/-- Validation follows the link, which the walk passes over; and a file of another kind, which
validation does not look at, ends the walk. -/
theorem not_validated_cached :
    (queryEntry ∈ entries queryConfig ∧ queryEntry.filePath = some "cq.wav" ∧
      filePathHasTemplate "cq.wav" = false) ∧
    (validateWithVoicekeyerDir (voiceFiles linkedFiles) queryConfig "/voicekeyer" =
        .ok queryLabels ∧
      (loadVoiceAssets (voiceFiles linkedFiles) "/voicekeyer").map (·["cq.wav"]?) = .ok none) ∧
    validateWithVoicekeyerDir (voiceFiles mixedFiles) queryConfig "/voicekeyer" = .ok queryLabels ∧
      (loadVoiceAssets (voiceFiles mixedFiles) "/voicekeyer").map (·["cq.wav"]?) =
        .error "voice message file must be a .wav file" := by
  refine ⟨⟨mem_entries_query, rfl, by decide +kernel⟩, ⟨by decide +kernel, by decide +kernel⟩,
    by decide +kernel, by decide +kernel⟩

end Log73.RadioIo
