import ChangeDesk.Json.Record

/-!
# Web links

Links that the server attaches to a commit, for instance to a browser of its repository.
-/

namespace ChangeDesk

/-- A named link, perhaps with an image. -/
structure WebLink where
  name : String
  url : String
  imageUrl : Option String
deriving DecidableEq, Repr, Inhabited

namespace WebLink

/-- The members of a link in a document. -/
def record : Json.Record WebLink where
  name := "WebLink"
  blank := ⟨"", "", none⟩
  fields :=
    [.needed "name" Json.Codec.text WebLink.name fun v l => { l with name := v },
     .needed "url" Json.Codec.text WebLink.url fun v l => { l with url := v },
     .optional "image_url" Json.Codec.text WebLink.imageUrl fun v l => { l with imageUrl := v }]

def codec : Json.Codec WebLink := record.codec

end WebLink

end ChangeDesk
