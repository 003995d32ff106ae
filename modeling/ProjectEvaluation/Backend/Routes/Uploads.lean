import ProjectEvaluation.Backend.Handlers

/-!
# `routes.py`: the upload of files

The handler works on the upload directory and not on the database. The Unicode
normalisation that `secure_filename` begins with is a parameter.

Results:
* `secureFilename_dotted`, `secureFilename_bare`: what is left of a file name.
* `storedName_spec`: the name a file is stored under.
-/

namespace ProjectEvaluation.Backend

open Python

/-! ## File names -/

/-- NFKD, character by character: a character becomes its decomposition, one of ASCII
    stays. (The reordering of combining marks moves no ASCII character, and only
    those are kept.) -/
structure Decomposition where
  chars : Char → List Char
  ascii : ∀ c, c.toNat < 128 → chars c = [c]

/-- NFKD where no character has a decomposition. -/
def plainDecomposition : Decomposition where
  chars c := [c]
  ascii _ _ := rfl

/-- The characters `secure_filename` keeps: `[A-Za-z0-9_.-]`. -/
def keptInName (c : Char) : Bool := c.isAlphanum || c == '_' || c == '.' || c == '-'

/-- `'._'`. -/
def isDotOrUnderscore (c : Char) : Bool := c == '.' || c == '_'

/-- `s.strip('._')`. -/
def stripDots (cs : List Char) : List Char :=
  ((cs.dropWhile isDotOrUnderscore).reverse.dropWhile isDotOrUnderscore).reverse

/-- `secure_filename`, where the path separator is `/`. -/
def secureFilename (d : Decomposition) (filename : String) : String :=
  let ascii := (filename.toList.flatMap d.chars).filter fun c => c.toNat < 128
  let words := splitWords (ascii.map fun c => if c = '/' then ' ' else c)
  String.ofList (stripDots ((['_'].intercalate words).filter keptInName))

/-- `ALLOWED_EXTENSIONS` (`routes.py`, line 1847). -/
def allowedExtensions : List String := ["jpg", "jpeg", "mp4", "pdf"]

/-- `'.' in filename`. -/
def hasDot (filename : String) : Bool := '.' ∈ filename.toList

/-- `allowed_file` (`routes.py`, lines 1851–1856). -/
def allowedFile (filename : String) : Bool :=
  if hasDot filename then lower (afterLast '.' filename) ∈ allowedExtensions
  else lower filename ∈ allowedExtensions

/-- The name `upload_file` stores a file under (`routes.py`, lines 1879–1891). -/
def storedName (d : Decomposition) (filename : String) : String :=
  let name := secureFilename d filename
  if [".pdf", ".jpg", ".jpeg", ".png", ".mp4"].any (endsWith name) then name
  else if lower name ∈ ["pdf", "jpg", "jpeg", "png", "mp4"] then name ++ "." ++ name
  else
    let originalExt := if hasDot filename then lower (afterLast '.' filename) else ""
    if originalExt = "" then name else name ++ "." ++ originalExt

/-! ## The handler -/

/-- An uploaded file. -/
structure FileStorage where
  filename : String
  contentLength : ℕ
  content : List UInt8

/-- The files under a directory, by path. -/
abbrev Disk := String → Option (List UInt8)

/-- `os.path.join(a, b)`, where `a` does not end in a separator. -/
def pathJoin (a b : String) : String := if b.toList.head? = some '/' then b else a ++ "/" ++ b

/-- `url_for('static', filename=…, _external=True)`, for a name that needs no quoting. -/
def staticUrl (host filename : String) : String := host ++ "/static/" ++ filename

/-- `POST /api/upload` (`routes.py`, lines 1858–1898). -/
def uploadFile (d : Decomposition) (host : String) (file : Option FileStorage) (disk : Disk) :
    Response × Disk :=
  match file with
  | none => (refuse 400 "没有文件被上传", disk)
  | some file =>
    if file.filename = "" then (refuse 400 "没有选择文件", disk)
    else if !allowedFile file.filename then (refuse 400 "不支持的文件类型，只允许JPG、MP4、PDF", disk)
    else if 50 * 1024 * 1024 < file.contentLength then (refuse 400 "文件大小超过限制，最大50MB", disk)
    else
      let filename := storedName d file.filename
      ({ status := 200, body := .dict
          [(.other "filename", .str filename),
           (.other "url", .str (staticUrl host (pathJoin "uploads" filename)))] },
        Function.update disk (pathJoin "static/uploads" filename) (some file.content))

/-- What the web server answers to a GET of a URL under `/static/`. -/
def serveStatic (host : String) (disk : Disk) (url : String) : Option (List UInt8) :=
  if (host ++ "/static/").toList.isPrefixOf url.toList then
    disk ("static/" ++ String.ofList (url.toList.drop (host ++ "/static/").length))
  else none

/-! ## What is left of a name -/

/-- The letters of the allowed extensions. -/
def extensionLetters : List Char :=
  ['j', 'p', 'e', 'g', 'm', '4', 'd', 'f', 'J', 'P', 'E', 'G', 'M', 'D', 'F']

theorem extensionLetters_plain : ∀ c ∈ extensionLetters, c.toNat < 128 ∧ isSpace c = false ∧
    keptInName c = true ∧ isDotOrUnderscore c = false ∧ c ≠ '/' ∧ c ≠ '.' := by decide

theorem mem_extensionLetters {c : Char} (h : ∀ x ∈ lowerChar c, x ∈ extensionLetters) :
    c ∈ extensionLetters := by
  unfold lowerChar at h
  split_ifs at h
  · exact absurd (h 'k' (List.mem_singleton_self _)) (by decide)
  · exact absurd (h 'i' (List.mem_cons_self ..)) (by decide)
  have hlower : c.toLower ∈ extensionLetters := h _ (List.mem_singleton_self _)
  by_cases hupper : 65 ≤ c.toNat ∧ c.toNat ≤ 90
  · obtain ⟨hlow, hhigh⟩ := hupper
    have hc : c = Char.ofNat c.toNat := (Char.ofNat_toNat c).symm
    rw [hc] at hlower ⊢
    generalize c.toNat = n at hlow hhigh hlower
    revert hlower
    interval_cases n <;> decide
  · have hsame : c.toLower = c := by
      unfold Char.toLower
      exact dif_neg fun hc => hupper ⟨hc.1, hc.2⟩
    rwa [hsame] at hlower

/-- An allowed extension, in whatever case, is made of its letters. -/
theorem extension_letters {ext : String} (h : lower ext ∈ allowedExtensions) :
    ext.toList ≠ [] ∧ ∀ c ∈ ext.toList, c ∈ extensionLetters := by
  have hchars : ∀ e ∈ allowedExtensions, e.toList ≠ [] ∧ ∀ x ∈ e.toList, x ∈ extensionLetters := by
    decide
  obtain ⟨hne, hletters⟩ := hchars _ h
  rw [lower, String.toList_ofList] at hne hletters
  refine ⟨fun hnil => hne (by rw [hnil]; rfl), fun c hc => mem_extensionLetters fun x hx => ?_⟩
  exact hletters x (List.mem_flatMap.mpr ⟨c, hc, hx⟩)

theorem flatMap_ascii (d : Decomposition) {cs : List Char} (h : ∀ c ∈ cs, c.toNat < 128) :
    (cs.flatMap d.chars).filter (fun c => c.toNat < 128) = cs := by
  induction cs with
  | nil => rfl
  | cons c cs ih =>
    have hc : c.toNat < 128 := h c (List.mem_cons_self ..)
    rw [List.flatMap_cons, d.ascii c hc, List.filter_append,
      ih fun x hx => h x (List.mem_cons_of_mem _ hx)]
    simp [hc]

theorem map_slash {cs : List Char} (h : ∀ c ∈ cs, c ≠ '/') :
    (cs.map fun c => if c = '/' then ' ' else c) = cs := by
  conv_rhs => rw [← List.map_id' cs]
  exact List.map_congr_left fun c hc => if_neg (h c hc)

theorem intercalate_append (sep : List Char) (ws : List (List Char)) (v w : List Char) :
    ∃ front, sep.intercalate (ws ++ [v ++ w]) = front ++ w := by
  induction ws with
  | nil => exact ⟨v, by simp [List.intercalate]⟩
  | cons u ws ih =>
    obtain ⟨front, ih⟩ := ih
    refine ⟨u ++ sep ++ front, ?_⟩
    cases ws with
    | nil => simp only [List.intercalate] at ih ⊢; simp at ih ⊢; simp [ih]
    | cons u' ws => simp only [List.intercalate] at ih ⊢; simp at ih ⊢; simp [ih]

/-- A name that ends in neither a dot nor an underscore is stripped at its front. -/
theorem stripDots_of_last {front ext : List Char} (hne : ext ≠ [])
    (hext : ∀ c ∈ ext, isDotOrUnderscore c = false) :
    stripDots (front ++ '.' :: ext) = ext ∨
      ∃ base, base ≠ [] ∧ stripDots (front ++ '.' :: ext) = base ++ '.' :: ext := by
  have hend : ∀ l : List Char,
      ((l ++ ext).reverse.dropWhile isDotOrUnderscore).reverse = l ++ ext := by
    intro l
    obtain ⟨init, last, rfl⟩ := List.eq_nil_or_concat ext |>.resolve_left hne
    have hlast : isDotOrUnderscore last = false := hext last (by simp)
    simp [hlast]
  have hfirst : (ext.dropWhile isDotOrUnderscore) = ext := by
    cases ext with
    | nil => rfl
    | cons c cs => simp [hext c (List.mem_cons_self ..)]
  unfold stripDots
  rw [List.dropWhile_append]
  split_ifs with hempty
  · left
    have hdot : ('.' :: ext).dropWhile isDotOrUnderscore = ext := by
      rw [List.dropWhile_cons_of_pos (by decide), hfirst]
    rw [hdot]
    exact hend []
  · refine Or.inr ⟨front.dropWhile isDotOrUnderscore, fun hnil => hempty (by rw [hnil]; rfl), ?_⟩
    have hcons : front.dropWhile isDotOrUnderscore ++ '.' :: ext =
        (front.dropWhile isDotOrUnderscore ++ ['.']) ++ ext := by simp
    rw [hcons]
    exact hend _

/-- **A name with an extension** keeps it, and keeps the dot unless nothing stands
    before it. -/
theorem secureFilename_dotted (d : Decomposition) {filename : String} {stem ext : List Char}
    (hname : filename.toList = stem ++ '.' :: ext) (hne : ext ≠ [])
    (hext : ∀ c ∈ ext, c ∈ extensionLetters) :
    (secureFilename d filename).toList = ext ∨
      ∃ base, base ≠ [] ∧ (secureFilename d filename).toList = base ++ '.' :: ext := by
  have hplain := fun c hc => extensionLetters_plain c (hext c hc)
  have hdotted : ∀ {P : Char → Prop}, P '.' → (∀ c ∈ ext, P c) → ∀ c ∈ '.' :: ext, P c := by
    intro P hdot h c hc
    rcases List.mem_cons.mp hc with rfl | hc
    · exact hdot
    · exact h c hc
  obtain ⟨ws, v, hwords⟩ := splitWords_append (w := '.' :: ext) (by simp)
    (hdotted (by decide) fun c hc => (hplain c hc).2.1)
    (((stem.flatMap d.chars).filter fun c => c.toNat < 128).map fun c => if c = '/' then ' ' else c)
  obtain ⟨front, hfront⟩ := intercalate_append ['_'] ws v ('.' :: ext)
  have hkept : ('.' :: ext).filter keptInName = '.' :: ext :=
    List.filter_eq_self.mpr (hdotted (by decide) fun c hc => (hplain c hc).2.2.1)
  have hsecure : (secureFilename d filename).toList =
      stripDots (front.filter keptInName ++ '.' :: ext) := by
    rw [secureFilename, String.toList_ofList, hname, List.flatMap_append, List.filter_append,
      flatMap_ascii d (hdotted (by decide) fun c hc => (hplain c hc).1), List.map_append,
      map_slash (hdotted (by decide) fun c hc => (hplain c hc).2.2.2.2.1), hwords, hfront,
      List.filter_append, hkept]
  rw [hsecure]
  exact stripDots_of_last hne fun c hc => (hplain c hc).2.2.2.1

/-- **A name that is an extension** is left as it is. -/
theorem secureFilename_bare (d : Decomposition) {filename : String} (hne : filename.toList ≠ [])
    (hext : ∀ c ∈ filename.toList, c ∈ extensionLetters) :
    secureFilename d filename = filename := by
  have hplain := fun c hc => extensionLetters_plain c (hext c hc)
  have hwords : splitWords filename.toList = [filename.toList] := by
    rw [splitWords, List.splitOnP_eq_singleton fun c hc => (hplain c hc).2.1]
    simp [hne]
  have hstrip : ∀ l : List Char, (∀ c ∈ l, isDotOrUnderscore c = false) →
      l.dropWhile isDotOrUnderscore = l := by
    intro l hl
    cases l with
    | nil => rfl
    | cons c cs => simp [hl c (List.mem_cons_self ..)]
  have hnodots : ∀ c ∈ filename.toList, isDotOrUnderscore c = false :=
    fun c hc => (hplain c hc).2.2.2.1
  have hstripped : stripDots filename.toList = filename.toList := by
    rw [stripDots, hstrip _ hnodots, hstrip _ fun c hc => hnodots c (List.mem_reverse.mp hc),
      List.reverse_reverse]
  rw [secureFilename, flatMap_ascii d fun c hc => (hplain c hc).1,
    map_slash fun c hc => (hplain c hc).2.2.2.2.1, hwords]
  simp only [List.intercalate, List.intersperse, List.flatten_cons, List.flatten_nil,
    List.append_nil]
  rw [List.filter_eq_self.mpr fun c hc => (hplain c hc).2.2.1, hstripped, String.ofList_toList]

theorem secureFilename_kept (d : Decomposition) (filename : String) :
    ∀ c ∈ (secureFilename d filename).toList, keptInName c = true := by
  intro c hc
  rw [secureFilename, String.toList_ofList, stripDots] at hc
  have hmem := List.dropWhile_subset _ (List.mem_reverse.mp hc)
  exact (List.mem_filter.mp (List.dropWhile_subset _ (List.mem_reverse.mp hmem))).2

/-! ## The stored name -/

/-- The extension of a client's file name; a name without a dot counts as its own. -/
def clientExtension (filename : String) : String :=
  if hasDot filename then afterLast '.' filename else filename

theorem allowedFile_iff (filename : String) :
    allowedFile filename = true ↔ lower (clientExtension filename) ∈ allowedExtensions := by
  unfold allowedFile clientExtension
  split_ifs <;> exact decide_eq_true_iff

theorem afterLast_spec {filename : String} (h : hasDot filename = true) :
    ∃ stem, filename.toList = stem ++ '.' :: (afterLast '.' filename).toList := by
  have hmem : '.' ∈ filename.toList.reverse := List.mem_reverse.mpr (of_decide_eq_true h)
  obtain ⟨ext, stem, hsplit, hext⟩ := List.eq_append_cons_of_mem hmem
  have htake : filename.toList.reverse.takeWhile (· ≠ '.') = ext := by
    have hpos : ∀ c ∈ ext, (decide (c ≠ '.')) = true :=
      fun c hc => decide_eq_true fun he => hext (he ▸ hc)
    rw [hsplit, List.takeWhile_append_of_pos hpos]
    simp
  refine ⟨stem.reverse, ?_⟩
  rw [afterLast, String.toList_ofList, htake]
  simpa using congrArg List.reverse hsplit

theorem not_endsWith_dot {s suffix : String} (h : '.' ∉ s.toList) (hsuffix : '.' ∈ suffix.toList) :
    endsWith s suffix = false := by
  rw [Bool.eq_false_iff]
  exact fun he => h ((List.isSuffixOf_iff_suffix.mp he).subset hsuffix)

/-- What holds of a stored name: it is made of the kept characters, and ends in a dot
    and an extension after at least one character. -/
def StoredAs (name : String) (ext : String) : Prop :=
  (∀ c ∈ name.toList, keptInName c = true) ∧
    ∃ base e : List Char, base ≠ [] ∧ name.toList = base ++ '.' :: e ∧
      e.flatMap lowerChar = (lower ext).toList

theorem storedAs_append {name ext suffix : String} (hne : name ≠ "")
    (hname : ∀ c ∈ name.toList, keptInName c = true)
    (hsuffix : ∀ c ∈ suffix.toList, keptInName c = true)
    (hlower : lower suffix = lower ext) : StoredAs (name ++ "." ++ suffix) ext := by
  refine ⟨fun c hc => ?_, name.toList, suffix.toList,
    fun h => hne (String.toList_eq_nil_iff.mp h), ?_, ?_⟩
  · simp only [String.toList_append, List.mem_append] at hc
    rcases hc with (hc | hc) | hc
    · exact hname c hc
    · rw [List.mem_singleton.mp hc]; decide
    · exact hsuffix c hc
  · simp [String.toList_append]
  · rw [← hlower, lower, String.toList_ofList]

/-- An allowed extension, in lower case. -/
theorem lower_extension : ∀ e ∈ allowedExtensions, lower e = e ∧ e ≠ "" ∧
    (∀ c ∈ e.toList, keptInName c = true) ∧ e ∈ ["pdf", "jpg", "jpeg", "png", "mp4"] := by decide

/-- A name of which only the extension is left is doubled. -/
theorem storedName_bare {d : Decomposition} {filename : String}
    (hallowed : lower (clientExtension filename) ∈ allowedExtensions)
    (hname : secureFilename d filename = clientExtension filename) :
    StoredAs (storedName d filename) (clientExtension filename) := by
  obtain ⟨hne, hletters⟩ := extension_letters hallowed
  have hplain := fun c hc => extensionLetters_plain c (hletters c hc)
  have hnodot : '.' ∉ (clientExtension filename).toList := fun hdot => (hplain _ hdot).2.2.2.2.2 rfl
  have hends : [".pdf", ".jpg", ".jpeg", ".png", ".mp4"].any
      (endsWith (clientExtension filename)) = false := by
    simp [not_endsWith_dot hnodot]
  have hstored : storedName d filename = clientExtension filename ++ "." ++
      clientExtension filename := by
    rw [storedName, hname, hends]
    exact (if_neg Bool.false_ne_true).trans (if_pos (lower_extension _ hallowed).2.2.2)
  rw [hstored]
  have hkept : ∀ c ∈ (clientExtension filename).toList, keptInName c = true :=
    fun c hc => (hplain c hc).2.2.1
  exact storedAs_append (fun h => hne (String.toList_eq_nil_iff.mpr h)) hkept hkept rfl

/-- A name with a dot that has no known extension in lower case gets one. -/
theorem storedName_dotted {d : Decomposition} {filename : String} (hdot : hasDot filename = true)
    (hallowed : lower (clientExtension filename) ∈ allowedExtensions) {base : List Char}
    (hbase : base ≠ [])
    (hname : (secureFilename d filename).toList = base ++
      '.' :: (clientExtension filename).toList) :
    StoredAs (storedName d filename) (clientExtension filename) := by
  have hkept := secureFilename_kept d filename
  by_cases hends : [".pdf", ".jpg", ".jpeg", ".png", ".mp4"].any
    (endsWith (secureFilename d filename)) = true
  · have hstored : storedName d filename = secureFilename d filename := by
      unfold storedName
      rw [if_pos hends]
    rw [hstored]
    exact ⟨hkept, base, _, hbase, hname, by rw [lower, String.toList_ofList]⟩
  have hdotted : '.' ∈ (lower (secureFilename d filename)).toList := by
    rw [lower, String.toList_ofList, hname]
    exact List.mem_flatMap.mpr ⟨'.', by simp, by decide⟩
  have hword : lower (secureFilename d filename) ∉ ["pdf", "jpg", "jpeg", "png", "mp4"] := by
    have hwords : ∀ e ∈ ["pdf", "jpg", "jpeg", "png", "mp4"], '.' ∉ e.toList := by decide
    exact fun h => hwords _ h hdotted
  have hclient : clientExtension filename = afterLast '.' filename := if_pos hdot
  obtain ⟨hidem, hext, hkeptExt, -⟩ := lower_extension _ hallowed
  have hstored : storedName d filename =
      secureFilename d filename ++ "." ++ lower (clientExtension filename) := by
    unfold storedName
    rw [if_neg hends, if_neg hword, if_pos hdot, ← hclient]
    exact if_neg hext
  rw [hstored]
  refine storedAs_append (fun h => ?_) hkept hkeptExt hidem
  rw [h] at hname
  simp at hname

/-- **The name a file is stored under** ends in the extension of the client's name. -/
theorem storedName_spec (d : Decomposition) {filename : String} (h : allowedFile filename = true) :
    StoredAs (storedName d filename) (clientExtension filename) := by
  have hallowed := (allowedFile_iff filename).mp h
  obtain ⟨hne, hletters⟩ := extension_letters hallowed
  by_cases hdot : hasDot filename = true
  · obtain ⟨stem, hstem⟩ := afterLast_spec hdot
    have hclient : clientExtension filename = afterLast '.' filename := if_pos hdot
    rw [← hclient] at hstem
    rcases secureFilename_dotted d hstem hne hletters with hbare | ⟨base, hbase, hname⟩
    · exact storedName_bare hallowed (String.toList_inj.mp hbare)
    · exact storedName_dotted hdot hallowed hbase hname
  · have hclient : clientExtension filename = filename := if_neg hdot
    refine storedName_bare hallowed ?_
    rw [hclient] at hne hletters ⊢
    exact secureFilename_bare d hne hletters

/-- The path of a stored file. -/
theorem pathJoin_of_kept {dir name : String} (h : ∀ c ∈ name.toList, keptInName c = true) :
    pathJoin dir name = dir ++ "/" ++ name := by
  refine if_neg fun hhead => ?_
  have hslash : keptInName '/' = true := h '/' (List.mem_of_head? hhead)
  exact absurd hslash (by decide)

theorem pathJoin_injective {dir name name' : String} (h : ∀ c ∈ name.toList, keptInName c = true)
    (h' : ∀ c ∈ name'.toList, keptInName c = true)
    (hpath : pathJoin dir name = pathJoin dir name') :
    name = name' := by
  rw [pathJoin_of_kept h, pathJoin_of_kept h'] at hpath
  exact (String.append_right_inj _).mp hpath

/-- A file under a path below `/static/` is served under the URL of the path. -/
theorem serveStatic_staticUrl (host path : String) (disk : Disk) :
    serveStatic host disk (staticUrl host path) = disk ("static/" ++ path) := by
  unfold serveStatic staticUrl
  generalize host ++ "/static/" = directory
  have hchars : (directory ++ path).toList = directory.toList ++ path.toList := String.toList_append
  rw [hchars, if_pos (List.isPrefixOf_iff_prefix.mpr (List.prefix_append _ _)),
    ← String.length_toList, List.drop_left, String.ofList_toList]

end ProjectEvaluation.Backend
