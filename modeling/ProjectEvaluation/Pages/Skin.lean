import Mathlib.Data.List.Sort
import ProjectEvaluation.Pages.EvaluationProject

/-!
# `Skin.jsx`: the skins of the system

The page in one browser: it is mounted, custom skins are saved and deleted, every event is over
before the next one, and every request succeeds. The colours the page shows are left out.
-/

namespace ProjectEvaluation.Pages.SkinPage

open Python Backend

/-! ## What the page deletes -/

/-- `response.data` of a list handler. -/
def listed : Json → List Json
  | .list objects => objects
  | _ => []

/-- `skin.type === 'custom'` (`Skin.jsx`, lines 69 and 143). -/
def isCustom (skin : Json) : Bool :=
  match member skin .type with
  | .str type => type == "custom"
  | _ => false

/-- `customSkins` (`Skin.jsx`, lines 69 and 143). -/
def customSkins (skins : List Json) : List Json := skins.filter isCustom

/-- `[...customSkins].sort((a, b) => a.id - b.id)` (`Skin.jsx`, lines 75 and 149). -/
def sortedSkins (skins : List Json) : List Json :=
  (customSkins skins).insertionSort fun a b => idOf a ≤ idOf b

/-- The ids of `skinsToDelete` in `cleanupCustomSkins` (`Skin.jsx`, lines 147–151). -/
def skinsToDelete (skins : List Json) : List ℕ :=
  if 4 < (customSkins skins).length
    then ((sortedSkins skins).take ((customSkins skins).length - 4)).map idOf else []

/-- The id of `oldestSkin` in `handleSaveCustomSkin`, if one is deleted (`Skin.jsx`, lines 73–75).
    -/
def oldestSkin (skins : List Json) : Option ℕ :=
  if 4 ≤ (customSkins skins).length then (sortedSkins skins).head?.map idOf else none

/-- `customSkinData` (`Skin.jsx`, lines 83–88). -/
def customSkinData (config : String) : Json :=
  .dict [(.name, .str "自定义皮肤"), (.type, .str "custom"), (.config, .str config),
    (.isDefault, .bool false)]

/-! ## The page and the server -/

/-- The server and the page (`Skin.jsx`, lines 9–12): `skins` is its list while it is mounted.
    `removed` is not part of the page: the ids of the skins that it deleted of its own accord. -/
structure SkinSession where
  db : DB
  skins : Option (List Json)
  removed : List ℕ

/-- Before the page is mounted. -/
def SkinSession.init (db : DB) : SkinSession where
  db := db
  skins := none
  removed := []

/-- What happens; `config` is the JSON text of `skinConfig`. -/
inductive SkinEvent
  | mount (k : Clock)
  | save (k : Clock) (config : String)
  | delete (k : Clock) (id : ℕ)

/-- A request that succeeds. -/
def send (k : Clock) (request : Request) (db : DB) : Option DB :=
  if (handle k request db).1.Success then some (handle k request db).2 else none

/-- The DELETEs of some skins, one after the other (`Skin.jsx`, lines 154–157). -/
def deleteSkins (k : Clock) (ids : List ℕ) (db : DB) : Option DB :=
  ids.foldlM (fun db id => send k (.delete .skin id) db) db

@[simp] theorem deleteSkins_nil (k : Clock) (db : DB) : deleteSkins k [] db = some db := rfl

@[simp] theorem deleteSkins_singleton (k : Clock) (id : ℕ) (db : DB) :
    deleteSkins k [id] db = send k (.delete .skin id) db := by
  simp [deleteSkins]

/-- `fetchSkins` (`Skin.jsx`, lines 15–29): the list that becomes `skins`. -/
def fetchSkins (db : DB) : List Json := listed (getSkins db).body

/-- `cleanupCustomSkins`, where it sees `skins` (`Skin.jsx`, lines 140–168); the list is fetched
    again if skins were deleted. -/
def SkinSession.cleanupCustomSkins (k : Clock) (skins : List Json) (s : SkinSession) :
    Option SkinSession :=
  (deleteSkins k (skinsToDelete skins) s.db).map fun db =>
    { db := db
      skins := if skinsToDelete skins = [] then s.skins else some (fetchSkins db)
      removed := s.removed ++ skinsToDelete skins }

/-- One event (`Skin.jsx`, lines 31–186). -/
def SkinSession.step (s : SkinSession) : SkinEvent → Option SkinSession
  | .mount k =>
    -- the effect has the functions of the first render, whose `skins` is `useState([])`
    { s with skins := some (fetchSkins s.db) }.cleanupCustomSkins k []
  | .save k config =>
    s.skins.bind fun skins =>
      (deleteSkins k (oldestSkin skins).toList s.db).bind fun db =>
        (send k (.create .skin (.json (customSkinData config))) db).map fun db' =>
          { db := db', skins := some (fetchSkins db'),
            removed := s.removed ++ (oldestSkin skins).toList }
  | .delete k id =>
    s.skins.bind fun skins =>
      if (customSkins skins).any fun skin => idOf skin == id then
        (send k (.delete .skin id) s.db).map fun db =>
          { s with db := db, skins := some (fetchSkins db) }
      else none

/-- The effect that mounts the page deletes nothing: its list is empty. -/
theorem SkinSession.step_mount (s : SkinSession) (k : Clock) :
    s.step (.mount k) = some { s with skins := some (fetchSkins s.db) } := by
  simp [step, cleanupCustomSkins, skinsToDelete, customSkins]

end ProjectEvaluation.Pages.SkinPage
