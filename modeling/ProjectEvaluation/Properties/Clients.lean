import ProjectEvaluation.Backend.Queries
import ProjectEvaluation.Backend.Routes.Uploads
import ProjectEvaluation.Lib.Footprint

/-!
# Clients on different tables

The server takes the requests of all browsers one after the other, in whatever order they
arrive. A request uses some tables of the database and changes some of them, and an upload
changes the directory of the uploads; what each handler of `routes.py` looks into and changes is
known before it runs (`Call.uses`, `Call.writes`).

Main results:
* `clients_alone`: a client whose tables the others do not change is answered as if it were
  the only one, and finds its tables as it left them.
* `clients_any_order`: where no client changes what another one uses, every interleaving of
  their requests ends with the same tables and files and gives them the same answers.
-/

namespace ProjectEvaluation.Backend

open Python Relational Transaction Footprint

/-! ## The server -/

/-- What the server keeps: the tables, and the directory of the uploads. -/
inductive Part
  | table (t : Table)
  | uploads
  deriving DecidableEq

/-- What a part holds. -/
abbrev Part.Contents : Part → Type
  | .table _ => List Record
  | .uploads => Disk

/-- The parts of the server. -/
abbrev Store := (p : Part) → p.Contents

/-- The database of a store. -/
def Store.db (s : Store) : DB := fun t => s (.table t)

/-- The store of a database and a directory. -/
def Store.of (db : DB) (disk : Disk) : Store
  | .table t => db t
  | .uploads => disk

/-- What the server runs with: `jwt.encode`, the Unicode normalisation and its address. -/
structure Setup where
  encode : ℕ → Date → Time → String
  decomposition : Decomposition
  host : String

/-- A request to a route, with the clocks at its arrival. -/
inductive Call
  | write (k : Clock) (request : Request)
  | read (k : Clock) (query : Query)
  | upload (file : Option FileStorage)

/-- Serve a request. -/
def Call.serve (e : Setup) : Call → Store → Response × Store
  | .write k request, s =>
    let (response, db) := handle k request s.db
    (response, Store.of db (s .uploads))
  | .read k query, s => (query.answer e.encode k s.db, s)
  | .upload file, s =>
    let (response, disk) := uploadFile e.decomposition e.host file (s .uploads)
    (response, Store.of s.db disk)

/-- The parts a request changes. -/
def Call.writes : Call → List Part
  | .write _ request => request.writes.map .table
  | .read _ _ => []
  | .upload _ => [.uploads]

/-- The parts a request uses. -/
def Call.uses : Call → List Part
  | .write _ request => request.uses.map .table
  | .read _ query => query.tables.map .table
  | .upload _ => [.uploads]

/-- A write request on two databases that agree on the tables it uses. -/
theorem handle_near (k : Clock) (request : Request) {db db' : DB}
    (h : ∀ t ∈ request.uses, db t = db' t) :
    (handle k request db).1 = (handle k request db').1 ∧
      Near request.uses request.writes db db' (handle k request db).2 (handle k request db').2 :=
  (handler_keepsTo k request db db').serve uncaught (Near.start h)

/-- **A request goes by the parts it uses.** -/
theorem Call.serve_congr (e : Setup) (call : Call) {s s' : Store}
    (h : ∀ p ∈ call.uses, s p = s' p) :
    (call.serve e s).1 = (call.serve e s').1 ∧
      ∀ p ∈ call.uses, (call.serve e s).2 p = (call.serve e s').2 p := by
  cases call with
  | write k request =>
    have huses : ∀ t ∈ request.uses, s.db t = s'.db t :=
      fun t ht => h (.table t) (List.mem_map_of_mem ht)
    obtain ⟨hanswer, hnear⟩ := handle_near k request huses
    refine ⟨hanswer, fun p hp => ?_⟩
    obtain ⟨t, ht, rfl⟩ := List.mem_map.mp hp
    exact hnear.agree t ht
  | read k query =>
    exact ⟨Query.answer_congr (fun t ht => h (.table t) (List.mem_map_of_mem ht)) e.encode k, h⟩
  | upload file =>
    have hdisk : s .uploads = s' .uploads := h .uploads List.mem_cons_self
    constructor
    · show (uploadFile e.decomposition e.host file (s .uploads)).1 =
        (uploadFile e.decomposition e.host file (s' .uploads)).1
      rw [hdisk]
    · intro p hp
      obtain rfl := List.mem_singleton.mp hp
      show (uploadFile e.decomposition e.host file (s .uploads)).2 =
        (uploadFile e.decomposition e.host file (s' .uploads)).2
      rw [hdisk]

/-- **A request leaves the parts it does not change.** -/
theorem Call.serve_frame (e : Setup) (call : Call) (s : Store) {p : Part} (hp : p ∉ call.writes) :
    (call.serve e s).2 p = s p := by
  cases call with
  | write k request =>
    cases p with
    | table t =>
      have ht : t ∉ request.writes := fun ht => hp (List.mem_map_of_mem ht)
      have hnear : Near request.uses request.writes s.db s.db _ _ :=
        (handle_near k request fun _ _ => rfl).2
      exact hnear.left t ht
    | uploads => rfl
  | read k query => rfl
  | upload file =>
    cases p with
    | table t => rfl
    | uploads => exact absurd List.mem_cons_self hp

theorem Call.writes_uses {call : Call} {p : Part} (hp : p ∈ call.writes) : p ∈ call.uses := by
  cases call with
  | write k request =>
    obtain ⟨t, ht, rfl⟩ := List.mem_map.mp hp
    exact List.mem_map_of_mem (List.mem_append_left _ ht)
  | read k query => exact absurd hp List.not_mem_nil
  | upload file => exact hp

/-- The backend as a server whose requests keep to their parts. -/
def backend (e : Setup) : Server Part Part.Contents Call Response where
  answer call s := (call.serve e s).1
  next call s := (call.serve e s).2
  uses call := {p | p ∈ call.uses}
  writes call := {p | p ∈ call.writes}
  writes_uses _ _ hp := Call.writes_uses hp
  answer_congr call _ _ h := (call.serve_congr e h).1
  next_congr call _ _ h p hp := (call.serve_congr e h).2 p (Call.writes_uses hp)
  frame call s _ hp := call.serve_frame e s hp

/-- The answers to the requests of all clients, in their order. -/
def callAnswers {C : Type} (e : Setup) (log : List (C × Call)) (s : Store) : List (C × Response) :=
  (backend e).answers log s

/-- The store after the requests of all clients. -/
def afterCalls {C : Type} (e : Setup) (log : List (C × Call)) (s : Store) : Store :=
  (backend e).after log s

/-! ## Clients -/

section Clients

variable {C : Type} [DecidableEq C] (e : Setup)

omit [DecidableEq C] in
theorem separate_of_parts {log : List (C × Call)}
    (hsep : ∀ p ∈ log, ∀ p' ∈ log, p.1 ≠ p'.1 → ∀ t ∈ p.2.writes, t ∉ p'.2.uses) :
    (backend e).Separate log := by
  intro p hp p' hp' hne
  exact ⟨Set.disjoint_left.mpr fun t ht => hsep p hp p' hp' hne t ht,
    Set.disjoint_left.mpr fun t ht => hsep p' hp' p hp (Ne.symm hne) t ht⟩

/-- **A client is served as if it were alone** while the others change no part it uses: its
    answers are those of its own requests on their own, and so are its parts at the end.
    Clients may read what is not changed together. -/
theorem clients_alone {log : List (C × Call)} (c : C)
    (hother : ∀ p ∈ log, p.1 ≠ c → ∀ p' ∈ log, p'.1 = c → ∀ t ∈ p.2.writes, t ∉ p'.2.uses)
    (s : Store) :
    own c (callAnswers e log s) = callAnswers e (own c log) s ∧
      ∀ p ∈ log, p.1 = c → ∀ t ∈ p.2.uses, afterCalls e log s t = afterCalls e (own c log) s t :=
  (backend e).alone
    (fun p hp hc p' hp' hc' => Set.disjoint_left.mpr fun t ht => hother p hp hc p' hp' hc' t ht) s

/-- **Only the order within each client matters**: two interleavings of the same requests of each
    client end in the same store, and every client gets the same answers in both. -/
theorem clients_any_order {log log' : List (C × Call)}
    (hsep : ∀ p ∈ log, ∀ p' ∈ log, p.1 ≠ p'.1 → ∀ t ∈ p.2.writes, t ∉ p'.2.uses)
    (hown : ∀ c, own c log = own c log') (s : Store) :
    afterCalls e log s = afterCalls e log' s ∧
      ∀ c, own c (callAnswers e log s) = own c (callAnswers e log' s) :=
  (backend e).any_order (separate_of_parts e hsep) hown s

end Clients

/-! ## Two clients at work -/

/-- The server of the developers; their file names are in ASCII. -/
def localSetup : Setup where
  encode _ _ _ := ""
  decomposition := plainDecomposition
  host := "http://localhost:5001"

/-- A skin and a catalog. -/
def skinStore : Store := Store.of
  (DB.ofRows
    [(.systemSkin, record 1 [(.name, .text "默认"), (.type, .text "default"),
     (.isDefault, .bool true)]), (.standardCatalog, record 3 [(.standardName, .text "病历书写规范"),
       (.standardShortName, .text "书写规范"), (.mnemonic, .text "SXGF"), (.content, .text "病历"),
       (.enabledStatus, .int 1), (.version, .text "1.0")])])
  fun _ => none

/-- A new catalog. -/
def newCatalog : Request := .create .catalog (.json (.dict
  [(.standardName, .str "电子病历规范"), (.standardShortName, .str "电子病历"),
   (.mnemonic, .str "DZBL"), (.content, .str "病历")]))

/-- A new menu. -/
def newMenu : Request := .create .menu (.json (.dict [(.name, .str "评审"), (.path, .str "/review")]))

/-- A file of three bytes. -/
def smallFile : FileStorage := { filename := "a.pdf", contentLength := 3, content := [37, 80, 68] }

/-- One client adds a catalog and uploads a file, and another one reads the skins. -/
def skinLog : List (ℕ × Call) :=
  [(0, .write .epoch newCatalog), (1, .read .epoch (.all .skin)), (0, .upload (some smallFile))]

theorem clients_alone_skins :
    (callAnswers localSetup skinLog skinStore).map (fun answer => answer.2.status) =
        [201, 200, 200] ∧
      own 1 (callAnswers localSetup skinLog skinStore) =
        callAnswers localSetup [(1, .read .epoch (.all .skin))] skinStore :=
  ⟨by decide +kernel, (clients_alone localSetup 1 (by decide) skinStore).1⟩

/-- One client adds a menu and uploads a file, and another one deletes the catalog. -/
def menuLog : List (ℕ × Call) :=
  [(0, .write .epoch newMenu), (1, .write .epoch (.delete .catalog 3)),
   (0, .upload (some smallFile))]

/-- The catalog may be deleted at any time. -/
theorem clients_any_order_menu :
    (callAnswers localSetup menuLog skinStore).map (fun answer => answer.2.status) =
        [201, 200, 200] ∧
      afterCalls localSetup menuLog skinStore =
        afterCalls localSetup
          [(1, .write .epoch (.delete .catalog 3)), (0, .write .epoch newMenu),
           (0, .upload (some smallFile))] skinStore :=
  ⟨by decide +kernel, (clients_any_order localSetup (by decide) (fun c => by
    by_cases h0 : 0 = c
    · subst h0; rfl
    · by_cases h1 : 1 = c
      · subst h1; rfl
      · simp [own, menuLog, h0, h1]) skinStore).1⟩

end ProjectEvaluation.Backend
