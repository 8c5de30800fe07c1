/-!
The web pages around the minutes and around the index.
-/
namespace Minutes

/-- The text before and after the content of every page, and the introduction of the index. -/
structure PageShell where
  header : String :=
    "<!DOCTYPE html>\n<html>\n<head>\n<meta charset=\"utf-8\" />\n" ++
    "<title>Meeting Minutes</title>\n</head>\n<body>\n"
  footer : String := "</body>\n</html>\n"
  indexIntro : String :=
    "<h2>Meeting Minutes</h2>\n" ++
    "<p>Minutes, resolutions and audio logs for every recorded meeting.</p>\n"
  deriving DecidableEq

namespace PageShell

def contentOpening : String :=
  "<div><div><div class=\"container\"><div class=\"row\">" ++
    "<div class=\"col-md-8 col-md-offset-2\">"

def contentClosing : String := "</div></div></div></div></div>"

/-- The page of one meeting. -/
def minutesPage (shell : PageShell) (minutes : String) : String :=
  shell.header ++ contentOpening ++ minutes ++ contentClosing ++ shell.footer

/-- The page of the index. -/
def indexPage (shell : PageShell) (listing : String) : String :=
  shell.header ++ "<div id=\"info\">" ++ shell.indexIntro ++ listing ++ "</div>" ++ shell.footer

end PageShell
end Minutes
