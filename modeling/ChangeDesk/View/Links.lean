import ChangeDesk.Commit
import ChangeDesk.ServerConfig

/-!
# Links to show

The links of a commit without the primary one, which has a place of its own. Where no link is
left, the whole section is left out.
-/

namespace ChangeDesk

/-- What gives the links of a commit: the server's list, or anything that adds to it. -/
abbrev LinkSource := Commit → List WebLink

/-- The name of the primary link: the configured one, or that of the repository browser. -/
def ServerConfig.primaryLink (config : ServerConfig) : String :=
  config.primaryWebLink?.getD "gitiles"

/-- The links that are not primary, if there are any. -/
def secondaryLinks? (config : ServerConfig) (links : List WebLink) : Option (List WebLink) :=
  match links.filter fun l => l.name != config.primaryLink with
  | [] => none
  | rest => some rest

/-- The links to show of what a source gives for a commit. -/
def sourcedLinks? (source : LinkSource) (commit : Option Commit) (config : ServerConfig) :
    Option (List WebLink) :=
  commit.bind fun c => secondaryLinks? config (source c)

/-- The links to show of those that the server attached to a commit. -/
def shownLinks? (commit : Option Commit) (config : ServerConfig) : Option (List WebLink) :=
  sourcedLinks? Commit.webLinks commit config

end ChangeDesk
