import Localization.File.Discovery

/-! The names of bundles, and the files of translated bundles, which stand beside their sources. -/

namespace Localization.Naming

/-- The name of the bundle of a package's own description. -/
def packageName : Text := .ofString "package"

/-- The characters before the first place where a word occurs. -/
def before (word : Text) : Text → Text
  | [] => []
  | p :: t => if word.isPrefixOf (p :: t) then [] else p :: before word t

/-- The name of the bundle in a file; nothing if the file is no bundle. -/
def bundleName? (p : Path) : Option Text :=
  if p.name = FileKind.packageBundle then some packageName
  else if FileKind.bundleSuffix.isSuffixOf p.name then some (before FileKind.bundleSuffix p.name)
  else none

/-- The name of the file with a translated bundle. -/
def translatedName (bundle language : Text) : Text :=
  let kind := if bundle = packageName then ".nls." else ".l10n."
  bundle ++ .ofString kind ++ language ++ .ofString ".json"

/-- The path of the bundle in a file once it is translated. -/
def translatedPath? (p : Path) (language : Text) : Option Path :=
  (bundleName? p).map fun bundle => p.parent ++ Path.ofText (translatedName bundle language)

end Localization.Naming
