import Dialogue.Media.Essence
import Dialogue.Path
/-!
# `Dialogue.Media.Extension` — media types by file extension.

A fixed table from media types to the extensions that stand for them, looked up without regard to the case
of ASCII letters. It has the extensions of common files, and is a slice of the table that the tool is shipped with;
whoever knows media types may go by another one.
-/

namespace Dialogue.Media

/-- **The table:** a media type and its extensions. -/
def extensionTable : List (String × List String) := [
  ("application/epub+zip", ["epub"]),
  ("application/font-sfnt", ["otf"]),
  ("application/font-woff", ["woff"]),
  ("application/gzip", ["gz"]),
  ("application/javascript", ["mjs"]),
  ("application/json", ["json"]),
  ("application/msword", ["doc"]),
  ("application/octet-stream", ["bin", "exe", "java", "psd", "so"]),
  ("application/pdf", ["pdf"]),
  ("application/postscript", ["eps", "ps"]),
  ("application/rtf", ["rtf"]),
  ("application/vnd.lotus-organizer", ["org"]),
  ("application/vnd.ms-excel", ["xls"]),
  ("application/vnd.ms-fontobject", ["eot"]),
  ("application/vnd.ms-powerpoint", ["ppt"]),
  ("application/vnd.oasis.opendocument.text", ["odt"]),
  ("application/vnd.openxmlformats-officedocument.presentationml.presentation", ["pptx"]),
  ("application/vnd.openxmlformats-officedocument.spreadsheetml.sheet", ["xlsx"]),
  ("application/vnd.openxmlformats-officedocument.wordprocessingml.document", ["docx"]),
  ("application/wasm", ["wasm"]),
  ("application/x-7z-compressed", ["7z"]),
  ("application/x-bzip2", ["bz2"]),
  ("application/x-compressed", ["tgz"]),
  ("application/x-httpd-php", ["php"]),
  ("application/x-msdownload", ["dll"]),
  ("application/x-perl", ["pl"]),
  ("application/x-rar-compressed", ["rar"]),
  ("application/x-sh", ["sh"]),
  ("application/x-sql", ["sql"]),
  ("application/x-subrip", ["srt"]),
  ("application/x-tar", ["tar"]),
  ("application/x-tex", ["tex"]),
  ("application/x-xz", ["xz"]),
  ("application/xhtml+xml", ["xhtml"]),
  ("application/zip", ["zip"]),
  ("audio/flac", ["flac"]),
  ("audio/mpeg", ["mp3"]),
  ("audio/ogg", ["ogg"]),
  ("audio/wav", ["wav"]),
  ("font/ttf", ["ttf"]),
  ("font/woff2", ["woff2"]),
  ("image/avif", ["avif"]),
  ("image/bmp", ["bmp"]),
  ("image/gif", ["gif"]),
  ("image/heic", ["heic"]),
  ("image/jpeg", ["jpeg", "jpg"]),
  ("image/jxl", ["jxl"]),
  ("image/png", ["png"]),
  ("image/svg+xml", ["svg"]),
  ("image/tiff", ["tiff"]),
  ("image/webp", ["webp"]),
  ("image/x-icon", ["ico"]),
  ("message/rfc822", ["eml"]),
  ("text/calendar", ["ics"]),
  ("text/css", ["css"]),
  ("text/csv", ["csv"]),
  ("text/html", ["htm", "html"]),
  ("text/javascript", ["js", "jsx"]),
  ("text/markdown", ["markdown", "md"]),
  ("text/plain", ["c", "cfg", "conf", "cpp", "cs", "h", "hpp", "ini", "log", "map", "py", "txt"]),
  ("text/sgml", ["sgml"]),
  ("text/tab-separated-values", ["tsv"]),
  ("text/vtt", ["vtt"]),
  ("text/x-lua", ["lua"]),
  ("text/x-rust", ["rs"]),
  ("text/x-toml", ["toml"]),
  ("text/x-vcard", ["vcf"]),
  ("text/x-yaml", ["yaml", "yml"]),
  ("text/xml", ["dtd", "xml", "xsl"]),
  ("video/mp4", ["mp4"]),
  ("video/quicktime", ["mov"]),
  ("video/vnd.dlna.mpeg-tts", ["ts"]),
  ("video/webm", ["webm"]),
  ("video/x-matroska", ["mkv"]),
  ("video/x-msvideo", ["avi"])]

/-- The media type that an extension stands for. -/
def ofExtension? (ext : List Char) : Option String :=
  let ext := String.ofList (ext.map lower)
  (extensionTable.find? fun row => row.2.contains ext).map (·.1)

/-- **The media type that the name of a file suggests.** -/
def ofPath? (p : Path) : Option String :=
  p.extension?.bind ofExtension?

end Dialogue.Media
