import Log73.Json
import Log73.RadioIo.VoiceMessages

/-!
The cache of voice assets (`voice_keyer.rs`), built by a walk through the `voicekeyer` directory
that follows no link, and the lookup of an asset that is to be played.
-/

namespace Log73.RadioIo

open Checks

def maxVoiceAssetBytes : Nat := 10 * 1024 * 1024
def maxTotalVoiceAssetBytes : Nat := 100 * 1024 * 1024

def normalizedVoiceAssetPath (path : String) : Except String String := do
  validateVoiceFilePath path
  return String.ofList ((trim path).toList.map fun c => if c = '\\' then '/' else c)

/-- The assets under their paths, and the size of them all. -/
structure VoiceAssets where
  assets : KeyMap (List UInt8) := ∅
  totalBytes : Nat := 0

section Walk

variable [OsTexts]

def displayPlace (place : List OsName) : String := joinWith "/" (place.map OsName.lossy)

/-- A regular file that the walk comes to. -/
def indexFile (fs : FileSystem) (root path : List OsName) (cache : VoiceAssets) :
    Except String VoiceAssets := do
  let canonicalPath ← okOr (fs.canonicalizePlace path) ("failed to resolve voice asset '/" ++
    displayPlace path ++ "': " ++ OsTexts.failure (displayPlace path))
  failIf (root.isPrefixOf canonicalPath = false)
    "voice message file path must stay within voicekeyer/"
  let relativePath ← normalizedVoiceAssetPath (displayPlace (canonicalPath.drop root.length))
  let bytes ← okOr (fs.read canonicalPath) ("failed to read voice asset '/" ++
    displayPlace canonicalPath ++ "': " ++ OsTexts.failure (displayPlace canonicalPath))
  failIf (maxVoiceAssetBytes < bytes.length)
    ("voice asset '" ++ relativePath ++ "' exceeds the 10 MiB file limit")
  let totalBytes := cache.totalBytes + bytes.length
  failIf (u64Max < totalBytes) "voice asset cache exceeds the 100 MiB total limit"
  failIf (maxTotalVoiceAssetBytes < totalBytes) "voice asset cache exceeds the 100 MiB total limit"
  failIf (cache.assets[relativePath]?.isSome = true)
    ("duplicate normalized voice asset path: " ++ relativePath)
  return { assets := cache.assets.insert relativePath bytes, totalBytes }

mutual

/-- The loop over the entries of a directory. -/
def indexVoiceAssets (fs : FileSystem) (root directory : List OsName) :
    List (OsName × FileNode) → VoiceAssets → Except String VoiceAssets
  | [], cache => .ok cache
  | (name, node) :: entries, cache => do
      let cache ← indexEntry fs root (directory ++ [name]) node cache
      indexVoiceAssets fs root directory entries cache

def indexEntry (fs : FileSystem) (root path : List OsName) :
    FileNode → VoiceAssets → Except String VoiceAssets
  | .link _, cache => .ok cache
  | .directory entries, cache => indexVoiceAssets fs root path entries cache
  | .file _, cache => indexFile fs root path cache
  | .other, cache => .ok cache

end

/-- The cache that a load puts in the place of the last one; a load that fails keeps that. -/
def loadVoiceAssets (fs : FileSystem) (voicekeyerDir : String) :
    Except String (KeyMap (List UInt8)) := do
  let root ← okOr (fs.canonicalize voicekeyerDir) ("failed to resolve voicekeyer/ directory '" ++
    voicekeyerDir ++ "': " ++ OsTexts.failure voicekeyerDir)
  let entries ← okOr (fs.readDir root) ("failed to read voicekeyer directory '/" ++
    displayPlace root ++ "': " ++ OsTexts.failure (displayPlace root))
  let cache ← indexVoiceAssets fs root root entries {}
  return cache.assets

end Walk

/-- The asset that `play_relative_path` plays. -/
def cachedAsset (assets : KeyMap (List UInt8)) (relativePath : String) :
    Except String (List UInt8) := do
  let relativePath ← normalizedVoiceAssetPath relativePath
  okOr assets[relativePath]? ("voice asset is not cached: " ++ relativePath)

end Log73.RadioIo
