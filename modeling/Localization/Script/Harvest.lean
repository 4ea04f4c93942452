import Localization.Script.Extraction

/-! The messages of several scripts, merged in order, and notices of keys that stand in more than
one of them. -/

namespace Localization.Script

/-- Why scripts cannot be harvested: the first of them that ends the run. -/
inductive HarvestError where
  | unsupported (e : UnsupportedFile)
  /-- A call without a message, and the script that it stands in. -/
  | fault (script : Source) (f : Fault)

private def harvestSource : String := "l10ndev.api"

/-- What the log says of a script before it is read. -/
def scriptNotice (s : Source) : Notice :=
  ⟨.debug, harvestSource, .ofString "Analyzing " ++ .ofChars (s.placeOr ('<' :: s.suffix ++ ['>']))⟩

/-- The notice that a key has been seen without comments before. -/
def collisionNotice (key : Text) : Notice :=
  ⟨.info, harvestSource, .ofString "The string '" ++ key
    ++ .ofString "' without comments has been seen multiple times."⟩

/-- What has been found in the scripts so far. -/
structure Harvest where
  /-- The bundles of the scripts, the last one first. -/
  bundles : List Bundle := []
  /-- The keys that stood for a message without comments. -/
  seen : List Text := []
  used : List Dialect := []
  notices : List Notice := []

/-- The bundles of scripts after what was found before; a fault ends the harvest. -/
def harvestFrom (o : Options) (h : Harvest) : List Source → Except HarvestError Bundle × List Notice
  | [] => (.ok (Bundle.mergeAll h.bundles.reverse), h.notices)
  | s :: rest =>
    let before := h.notices ++ [scriptNotice s]
    match analyze o s with
    | .error e => (.error (.unsupported e), before)
    | .ok a =>
      let (given, used) := notices true h.used s a
      match a.outcome with
      | .error f => (.error (.fault s f), before ++ given)
      | .ok bundle =>
        let (noted, seen) := Bundle.collide h.seen bundle
        let said := before ++ given ++ noted.map collisionNotice
        harvestFrom o ⟨bundle :: h.bundles, seen, used, said⟩ rest

/-- The bundle of scripts, or the first reason why there is none, and the notices on the way. -/
def harvest (o : Options) (scripts : List Source) : Except HarvestError Bundle × List Notice :=
  harvestFrom o {} scripts

end Localization.Script
