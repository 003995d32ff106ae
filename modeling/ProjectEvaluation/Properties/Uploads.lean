import ProjectEvaluation.Backend.Routes.Uploads
import ProjectEvaluation.Pages.Catalog

/-!
# Uploaded files

Results:
* `stored_name_ok`: the name of a stored file is a plain file name whose extension the
  player of the page knows.
* `last_upload_served`: a URL serves the last file that was stored under its name.
-/

namespace ProjectEvaluation.Backend

open Python Pages

/-! ## Names -/

/-- The kind of an extension. -/
def extensionType (ext : String) : Option AttachmentType :=
  if ext = "pdf" then some .pdf
  else if ext = "mp4" then some .mp4
  else if ext = "jpg" ∨ ext = "jpeg" then some .image
  else none

/-- The last name in a URL decides the kind of an attachment. -/
theorem attachmentType_of_suffix {url ext : String} (hext : ext ∈ allowedExtensions)
    (h : ("." ++ ext).toList <:+ (lower url).toList) : attachmentType url = extensionType ext := by
  unfold attachmentType
  have htests : ∀ e ∈ allowedExtensions, ".pdf".length ≤ ("." ++ e).toList.length ∧
      (endsWith ("." ++ e) ".pdf" = decide (e = "pdf")) ∧
        (endsWith ("." ++ e) ".mp4" = decide (e = "mp4")) ∧
      (endsWith ("." ++ e) ".jpg" = decide (e = "jpg")) ∧
      (e = "jpeg" → endsWith ("." ++ e) ".jpeg" = true) := by decide
  obtain ⟨hlen, hpdf, hmp4, hjpg, hjpeg⟩ := htests ext hext
  rw [endsWith_of_suffix h hlen, endsWith_of_suffix h (u := ".mp4") hlen,
    endsWith_of_suffix h (u := ".jpg") hlen, hpdf, hmp4, hjpg]
  have hmem : ext = "jpg" ∨ ext = "jpeg" ∨ ext = "mp4" ∨ ext = "pdf" := by
    simpa [allowedExtensions] using hext
  rcases hmem with rfl | rfl | rfl | rfl
  · simp [extensionType]
  · rw [endsWith_of_suffix h (u := ".jpeg") (le_refl _), hjpeg rfl]
    simp [extensionType]
  · simp [extensionType]
  · simp [extensionType]

theorem extensionType_isSome : ∀ ext ∈ allowedExtensions, (extensionType ext).isSome := by decide

/-- **The name of a stored file.** -/
theorem stored_name_ok (d : Decomposition) (host filename : String)
    (h : allowedFile filename = true) :
    storedName d filename ≠ "" ∧ storedName d filename ≠ "." ∧ storedName d filename ≠ ".." ∧
      (∀ c ∈ (storedName d filename).toList, c ≠ '/' ∧ c ≠ '\\') ∧
      endsWith (lower (storedName d filename)) ("." ++ lower (clientExtension filename)) = true ∧
      attachmentType (staticUrl host (pathJoin "uploads" (storedName d filename))) =
        extensionType (lower (clientExtension filename)) ∧
      (extensionType (lower (clientExtension filename))).isSome := by
  have hallowed := (allowedFile_iff filename).mp h
  obtain ⟨hkept, base, e, hbase, hname, hlower⟩ := storedName_spec d h
  have hchars : (lower (storedName d filename)).toList =
      base.flatMap lowerChar ++ ("." ++ lower (clientExtension filename)).toList := by
    have hdot : lowerChar '.' = ".".toList := by decide
    have hlist : ∀ s : String, (lower s).toList = s.toList.flatMap lowerChar :=
      fun s => String.toList_ofList
    rw [hlist (storedName d filename), hname, List.flatMap_append, List.flatMap_cons, hdot, hlower,
      String.toList_append]
  have hends : ("." ++ lower (clientExtension filename)).toList <:+
      (lower (storedName d filename)).toList :=
    ⟨base.flatMap lowerChar, hchars.symm⟩
  -- the extension is not empty, so the name has at least three characters
  have hlength : 3 ≤ (storedName d filename).toList.length := by
    have hnil : ∀ ext ∈ allowedExtensions, ext.toList ≠ [] := by decide
    have he : e ≠ [] := fun he => hnil _ hallowed (by rw [← hlower, he]; rfl)
    have hb := List.length_pos_iff.mpr hbase
    have hl := List.length_pos_iff.mpr he
    rw [hname, List.length_append, List.length_cons]
    omega
  have hshort : ∀ s : String, s.toList.length < 3 → storedName d filename ≠ s := by
    rintro s hs rfl
    omega
  refine ⟨hshort "" (by decide), hshort "." (by decide), hshort ".." (by decide),
    fun c hc => ?_, ?_, ?_, extensionType_isSome _ hallowed⟩
  · have hc := hkept c hc
    have hseparators : keptInName '/' = false ∧ keptInName '\\' = false := by decide
    constructor
    · rintro rfl
      rw [hseparators.1] at hc
      cases hc
    · rintro rfl
      rw [hseparators.2] at hc
      cases hc
  · exact List.isSuffixOf_iff_suffix.mpr hends
  · have hurl : ∃ directory, staticUrl host (pathJoin "uploads" (storedName d filename)) =
        directory ++ storedName d filename :=
      ⟨host ++ "/static/" ++ ("uploads" ++ "/"), by
        rw [pathJoin_of_kept hkept, staticUrl]
        simp only [String.append_assoc]⟩
    obtain ⟨directory, hurl⟩ := hurl
    obtain ⟨front, hfront⟩ := hends
    refine attachmentType_of_suffix hallowed ⟨(lower directory).toList ++ front, ?_⟩
    rw [List.append_assoc, hfront, hurl, lower_append]
    exact String.toList_append.symm

/-- A name of which only the extension is left. -/
theorem stored_name_ok_chinese :
    attachmentType (staticUrl "http://localhost:5001"
      (pathJoin "uploads" (storedName plainDecomposition "报告.PDF"))) =
      some .pdf :=
  (stored_name_ok plainDecomposition "http://localhost:5001" "报告.PDF" (by decide)).2.2.2.2.2.1

/-! ## Contents -/

/-- The state of the directory after some uploads. -/
def uploadAll (d : Decomposition) (host : String) (disk : Disk) (files : List FileStorage) : Disk :=
  files.foldl (fun disk file => (uploadFile d host (some file) disk).2) disk

/-- An upload that is accepted. -/
def Accepted (file : FileStorage) : Prop :=
  file.filename ≠ "" ∧ allowedFile file.filename = true ∧ file.contentLength ≤ 50 * 1024 * 1024

instance (file : FileStorage) : Decidable (Accepted file) := by unfold Accepted; infer_instance

/-- The URL the answer to an accepted upload has. -/
def uploadUrl (d : Decomposition) (host : String) (file : FileStorage) : String :=
  staticUrl host (pathJoin "uploads" (storedName d file.filename))

/-- **One upload**: it is accepted exactly when the status is 200, answers with the URL of
    the stored name, and writes the file there. -/
theorem uploadFile_spec (d : Decomposition) (host : String) (file : FileStorage) (disk : Disk) :
    ((uploadFile d host (some file) disk).1.Success ↔ Accepted file) ∧
      (Accepted file → uploadFile d host (some file) disk =
        ({ status := 200, body := .dict
            [(.other "filename", .str (storedName d file.filename)),
              (.other "url", .str (uploadUrl d host file))] },
          Function.update disk (pathJoin "static/uploads" (storedName d file.filename))
            (some file.content))) := by
  unfold uploadFile Accepted
  by_cases hname : file.filename = ""
  · simp [hname, refuse, Response.Success]
  by_cases hallowed : allowedFile file.filename = true
  swap
  · simp [hname, hallowed, refuse, Response.Success]
  by_cases hlength : 50 * 1024 * 1024 < file.contentLength
  · have hlong : ¬ file.contentLength ≤ 50 * 1024 * 1024 := Nat.not_le.mpr hlength
    simp [hname, hallowed, hlength, hlong, refuse, Response.Success]
  · have hshort : file.contentLength ≤ 50 * 1024 * 1024 := Nat.not_lt.mp hlength
    simp [hname, hallowed, hlength, hshort, Response.Success, uploadUrl]

theorem uploadAll_append (d : Decomposition) (host : String) (disk : Disk)
    (files : List FileStorage)
    (new : FileStorage) : uploadAll d host disk (files ++ [new]) =
      (uploadFile d host (some new) (uploadAll d host disk files)).2 := by
  rw [uploadAll, List.foldl_append]
  rfl

theorem storedName_kept (d : Decomposition) {file : FileStorage} (h : Accepted file) :
    ∀ c ∈ (storedName d file.filename).toList, keptInName c = true := (storedName_spec d h.2.1).1

/-- What the URL of an upload serves is the file stored under its name. -/
theorem serve_uploadUrl (d : Decomposition) (host : String) {file : FileStorage} (h : Accepted file)
    (disk : Disk) :
    serveStatic host disk (uploadUrl d host file) =
      disk (pathJoin "static/uploads" (storedName d file.filename)) := by
  have hpath : "static/" ++ pathJoin "uploads" (storedName d file.filename) =
      pathJoin "static/uploads" (storedName d file.filename) := by
    rw [pathJoin_of_kept (storedName_kept d h), pathJoin_of_kept (storedName_kept d h)]
    simp only [← String.append_assoc]
    rfl
  rw [uploadUrl, serveStatic_staticUrl, hpath]

/-- **Uploads.** After a sequence of accepted uploads the URL of each of them serves the
    last file of the sequence that was stored under its name. -/
theorem last_upload_served (d : Decomposition) (host : String) (disk : Disk)
    (files : List FileStorage)
    (haccepted : ∀ file ∈ files, Accepted file) :
    ∀ file ∈ files, serveStatic host (uploadAll d host disk files) (uploadUrl d host file) =
      (files.reverse.find? fun f => storedName d f.filename == storedName d file.filename).map
        FileStorage.content := by
  induction files using List.reverseRecOn with
  | nil => exact fun file hfile => nomatch hfile
  | append_singleton files new ih =>
    intro file hfile
    have hold : ∀ f ∈ files, Accepted f := fun f hf => haccepted f (List.mem_append_left _ hf)
    have hnew : Accepted new := haccepted new (List.mem_append_right _ (List.mem_singleton_self _))
    have hdisk : uploadAll d host disk (files ++ [new]) =
        Function.update (uploadAll d host disk files)
        (pathJoin "static/uploads" (storedName d new.filename)) (some new.content) := by
      rw [uploadAll_append, (uploadFile_spec d host new _).2 hnew]
    rw [serve_uploadUrl d host (haccepted file hfile), hdisk, List.reverse_append,
      List.reverse_singleton, List.singleton_append, List.find?_cons]
    by_cases hname : storedName d new.filename = storedName d file.filename
    · rw [beq_iff_eq.mpr hname, ← hname, Function.update_self]
      rfl
    · have hpath : pathJoin "static/uploads" (storedName d file.filename) ≠
          pathJoin "static/uploads" (storedName d new.filename) :=
        fun he => hname
          (pathJoin_injective (storedName_kept d (haccepted file hfile))
            (storedName_kept d hnew) he).symm
      rw [beq_eq_false_iff_ne.mpr hname, Function.update_of_ne hpath]
      have hmem : file ∈ files := by
        rcases List.mem_append.mp hfile with hmem | hmem
        · exact hmem
        · exact absurd (by rw [List.mem_singleton.mp hmem]) hname
      rw [← ih hold file hmem, serve_uploadUrl d host (hold file hmem)]

/-- Two files whose names have only their extension in ASCII. -/
def firstReport : FileStorage := { filename := "甲.pdf", contentLength := 1, content := [1] }

def secondReport : FileStorage := { filename := "乙.pdf", contentLength := 1, content := [2] }

/-- The URL of the second of them serves it. -/
theorem last_upload_served_reports :
    serveStatic "http://localhost:5001"
        (uploadAll plainDecomposition "http://localhost:5001"
          (fun _ => none) [firstReport, secondReport])
        (uploadUrl plainDecomposition "http://localhost:5001" secondReport) =
      ([secondReport, firstReport].find? fun f => storedName plainDecomposition f.filename ==
        storedName plainDecomposition secondReport.filename).map FileStorage.content :=
  last_upload_served plainDecomposition "http://localhost:5001"
    (fun _ => none) [firstReport, secondReport]
    (by decide) secondReport (List.mem_cons_of_mem _ (List.mem_singleton_self _))

/-- The URL of the first one serves the second one. -/
theorem upload_replaced :
    Accepted firstReport ∧ Accepted secondReport ∧
      serveStatic "http://localhost:5001"
        (uploadAll plainDecomposition "http://localhost:5001"
          (fun _ => none) [firstReport, secondReport])
        (uploadUrl plainDecomposition "http://localhost:5001" firstReport) ≠
          some firstReport.content := by
  decide

end ProjectEvaluation.Backend
