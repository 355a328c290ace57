import RecordFilter.Proofs.Json.Records
import RecordFilter.Proofs.Json.Written
import RecordFilter.User.Json

/-!
# Users read back

A user is a record, so it is read from a document by what the document gives for each of its parts.
A written user spells a document that gives each part once, in order, and the integers of both sizes
are within the range of the part that they are read into.  Hence a list of users that is written to
a file is read back from it, whatever characters the names have and whatever integers the users
hold, and blanks around the text change nothing.

* `takes_reader`: users are read from every spelling of a document, as `ofDocument?` says.
* `ofDocument?_document`: the document of a user stands for this user.
* `listOfText_fileText_append`: the file of users is read back.
-/

namespace RecordFilter.User

open Json (Document Reader Takes)
open Json.Spelling (Blanks)

/-- A part of a user: how it is read, and what a document makes of it. -/
abbrev Part := Reader.Member User × (User → Document → Option User)

/-- The parts of a user. -/
def parts : List Part := jsonMembers.zip
  [ fun u d => (d.integer? Integer.toInt64?).map fun id => { u with id },
    fun u d => d.string?.map fun name => { u with name },
    fun u d => (d.integer? Integer.toInt32?).map fun age => { u with age },
    fun u d => d.truth?.map fun isActive => { u with isActive } ]

theorem jsonMembers_eq : jsonMembers = parts.map Prod.fst := rfl

/-- The user of a document. -/
def ofDocument? (d : Document) : Option User :=
  d.record? Prod.fst (fun p : Part => p.2) parts ⟨0, "", 0, false⟩

theorem takes_part : ∀ p ∈ parts, ∀ (u : User) (d : Document),
    Takes (p.1.read u) d.Spelled (p.2 u d) := by
  simp only [parts, jsonMembers, List.zip_cons_cons, List.zip_nil_right, List.forall_mem_cons]
  exact ⟨fun u d => (Document.takes_integer "i64" Integer.toInt64? d).map _,
    fun u d => (Document.takes_string d).map _,
    fun u d => (Document.takes_integer "i32" Integer.toInt32? d).map _,
    fun u d => (Document.takes_truth d).map _, List.forall_mem_nil _⟩

/-- A user is read from any spelling of a document. -/
theorem takes_reader (d : Document) : Takes reader d.Spelled (ofDocument? d) := by
  rw [reader, jsonMembers_eq]
  exact Document.takes_record takes_part "User" _ d

/-- The text of a file is read as the users of its document. -/
theorem toOption_listOfText {d : Document} {s : String} (hs : d.IsSpelledBy s) :
    (listOfText s).toOption = d.list? ofDocument? :=
  Json.toOption_complete (Document.takes_list takes_reader d) hs

/-! ## Written users -/

theorem integer?_document_id (i : Int64) :
    (Json.integer i.toInt).document.integer? Integer.toInt64? = some i := by
  rw [Json.document, Document.integer?, Reader.toInteger?_integerNumeral, Option.bind_some,
    Integer.toInt64?_toInt]

/-- An integer of 32 bits is one of 64 bits, so its numeral is that of an integer. -/
theorem integer?_document_age (i : Int32) :
    (Json.integer i.toInt).document.integer? Integer.toInt32? = some i := by
  rw [Json.document, Document.integer?, ← Int32.toInt_toInt64, Reader.toInteger?_integerNumeral,
    Option.bind_some, Int32.toInt_toInt64, Integer.toInt32?_toInt]

/-- The document of a user stands for this user. -/
theorem ofDocument?_document (u : User) : ofDocument? u.toJson.document = some u := by
  have hid := integer?_document_id u.id
  have hage := integer?_document_age u.age
  simp only [toJson, Json.document, Json.memberDocuments] at hid hage ⊢
  simp [ofDocument?, Document.record?, Document.byName?, Document.named?, parts, jsonMembers,
    Reader.Member.answersTo, Document.isComplete, Document.string?, Document.truth?, hid, hage]

theorem isFinite_users (users : List User) :
    (Json.array (users.map toJson)).isFinite = true := by
  rw [Json.isFinite, Json.areFinite_eq_all, List.all_map, List.all_eq_true]
  exact fun u _ => rfl

/-- The documents of users stand for these users. -/
theorem list?_document (users : List User) :
    (Json.array (users.map toJson)).document.list? ofDocument? = some users := by
  rw [Json.document, Json.documents_eq_map, Document.list?, List.map_map]
  induction users with
  | nil => rfl
  | cons u users ih =>
    rw [List.map_cons, List.mapM_cons, Function.comp_apply, ofDocument?_document, ih]
    rfl

/-- A file of users is read back as these users, with any blanks at its end. -/
theorem listOfText_fileText_append (users : List User) (blanks : String)
    (hblanks : Blanks blanks.toList []) : listOfText (fileText users ++ blanks) = .ok users := by
  have hspelled : (Json.array (users.map toJson)).document.IsSpelledBy (fileText users ++ blanks) :=
    Json.isSpelledBy_text (isFinite_users users) .indented hblanks
  refine Reader.eq_ok_of_toOption ?_
  rw [toOption_listOfText hspelled, list?_document]

end RecordFilter.User
